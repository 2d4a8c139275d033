import QueryHighlight.Proofs.Scan.LiteralBody
import QueryHighlight.Proofs.Scan.StartRules
import QueryHighlight.Scan.Scanner

/-!
How much of a line a match claims. Every rule claims one character at least and none behind the
end of the line, so the characters that the scanner takes are exactly the ones that were claimed.
-/

namespace QueryHighlight.Scan
open Text

/-- A text has `size` characters to give, and `size` is not nothing. -/
def Fits (size : Nat) (rest : List Char) : Prop := 0 < size ∧ size ≤ rest.length

theorem length_takeWhile_le (isMember : Char → Bool) (rest : List Char) :
    (rest.takeWhile isMember).length ≤ rest.length :=
  (List.takeWhile_prefix isMember).length_le

theorem digitCount_le (rest : List Char) : digitCount rest ≤ rest.length :=
  length_takeWhile_le _ rest

theorem hexDigitCount_le (rest : List Char) : hexDigitCount rest ≤ rest.length :=
  length_takeWhile_le _ rest

theorem Fits.drop {size further : Nat} {rest : List Char} (whole : size ≤ rest.length)
    (fits : Fits further (rest.drop size)) : Fits (size + further) rest := by
  have bound := fits.2
  rw [List.length_drop] at bound
  have positive := fits.1
  exact ⟨by omega, by omega⟩

theorem fits_pointSize? {rest : List Char} {size : Nat} (found : pointSize? rest = some size) :
    Fits size rest := by
  dsimp only [pointSize?] at found
  split at found
  next after point =>
    have fraction := digitCount_le after
    have lengths := congrArg List.length point
    rw [List.length_drop, List.length_cons] at lengths
    have same := (Option.ite_none_right_eq_some.mp found).2
    cases same
    exact ⟨by omega, by omega⟩
  next => cases found

theorem fits_wholeSize? {rest : List Char} {size : Nat} (found : wholeSize? rest = some size) :
    Fits size rest := by
  obtain ⟨positive, same⟩ := Option.ite_none_right_eq_some.mp found
  cases same
  exact ⟨positive, digitCount_le rest⟩

theorem fits_exponentSize? {rest : List Char} {size : Nat} (found : exponentSize? rest = some size) :
    Fits size rest := by
  cases rest with
  | nil => cases found
  | cons mark rest =>
    obtain ⟨-, digits⟩ := Option.ite_none_right_eq_some.mp found
    obtain ⟨positive, same⟩ := Option.ite_none_right_eq_some.mp digits
    cases same
    have bound := digitCount_le (rest.drop (if rest.head?.any isSign then 1 else 0))
    rw [List.length_drop] at bound
    rw [Fits, List.length_cons]
    exact ⟨by omega, by omega⟩

theorem fits_withExponent? {rest : List Char} {size total : Nat} (whole : size ≤ rest.length)
    (found : withExponent? rest size = some total) : Fits total rest := by
  obtain ⟨further, exponent, same⟩ := Option.map_eq_some_iff.mp found
  cases same
  exact Fits.drop whole (fits_exponentSize? exponent)

/-- The three ways to read a float in the order in which they are tried. -/
theorem floatSize?_eq_or (rest : List Char) :
    floatSize? rest = ((pointSize? rest).bind (withExponent? rest)).or
      (((wholeSize? rest).bind (withExponent? rest)).or (pointSize? rest)) := by
  simp only [floatSize?, Option.orElse_eq_or, Option.orElse_eq_orElse]

theorem fits_floatSize? {rest : List Char} {size : Nat} (found : floatSize? rest = some size) :
    Fits size rest := by
  rw [floatSize?_eq_or, Option.or_eq_some_iff, Option.or_eq_some_iff] at found
  rcases found with longPoint | ⟨-, longWhole | ⟨-, point⟩⟩
  · obtain ⟨point, known, exponent⟩ := Option.bind_eq_some_iff.mp longPoint
    exact fits_withExponent? (fits_pointSize? known).2 exponent
  · obtain ⟨whole, known, exponent⟩ := Option.bind_eq_some_iff.mp longWhole
    exact fits_withExponent? (fits_wholeSize? known).2 exponent
  · exact fits_pointSize? point

theorem fits_decimalSize? {rest : List Char} {size : Nat} (found : decimalSize? rest = some size) :
    Fits size rest := by
  cases rest with
  | nil => cases found
  | cons c rest =>
    have bound := digitCount_le rest
    rw [decimalSize?] at found
    rw [Fits, List.length_cons]
    split at found
    next =>
      cases found
      exact ⟨by omega, by omega⟩
    next =>
      cases (Option.ite_none_right_eq_some.mp found).2
      exact ⟨by omega, by omega⟩

theorem fits_hexSize? {rest : List Char} {size : Nat} (found : hexSize? rest = some size) :
    Fits size rest := by
  unfold hexSize? at found
  split at found
  next zero mark digits =>
    have bound := hexDigitCount_le digits
    cases (Option.ite_none_right_eq_some.mp found).2
    rw [Fits, List.length_cons, List.length_cons]
    exact ⟨by omega, by omega⟩
  next => cases found

theorem fits_of_mem_integerSizes {rest : List Char} {tag : Tag} {size : Nat}
    (member : (tag, size) ∈ integerSizes rest) : Fits size rest := by
  simp only [integerSizes, List.mem_append, List.mem_map, Option.mem_toList, Prod.mk.injEq]
    at member
  rcases member with ⟨_, decimal, -, rfl⟩ | ⟨_, hexadecimal, -, rfl⟩
  · exact fits_decimalSize? decimal
  · exact fits_hexSize? hexadecimal

theorem fits_longSuffixAt {rest : List Char} {size : Nat} (suffix : longSuffixAt rest size = true) :
    Fits (size + 1) rest := by
  rw [longSuffixAt, Bool.and_eq_true, Option.any_eq_true] at suffix
  obtain ⟨⟨c, present, -⟩, -⟩ := suffix
  obtain ⟨bound, -⟩ := List.getElem?_eq_some_iff.mp present
  exact ⟨by omega, by omega⟩

theorem fits_integer? {rest : List Char} {tag : Tag} {size : Nat}
    (found : integer? rest = some (tag, size)) : Fits size rest := by
  rw [integer?, Option.orElse_eq_orElse, Option.orElse_eq_or, Option.or_eq_some_iff] at found
  rcases found with long | ⟨-, plain⟩
  · obtain ⟨⟨_, whole⟩, known, same⟩ := Option.map_eq_some_iff.mp long
    cases same
    have suffix := List.find?_some known
    exact fits_longSuffixAt suffix
  · exact fits_of_mem_integerSizes (List.mem_of_find?_eq_some plain)

theorem nameRest?_le {before : Char} {rest : List Char} {size : Nat}
    (found : nameRest? before rest = some size) : size ≤ rest.length := by
  fun_induction nameRest? before rest generalizing size with
  | case1 => cases (Option.some.inj found); exact Nat.zero_le _
  | case2 => cases found
  | case3 before c rest further deeper ih =>
    cases (Option.some.inj found)
    obtain ⟨-, known⟩ := Option.ite_none_right_eq_some.mp deeper
    have bound := ih known
    rw [List.length_cons]
    omega
  | case4 => cases (Option.some.inj found); exact Nat.zero_le _
  | case5 => cases found

theorem fits_nameSize? {rest : List Char} {size : Nat} (found : nameSize? rest = some size) :
    Fits size rest := by
  refine ⟨nameSize?_pos found, ?_⟩
  cases rest with
  | nil => cases found
  | cons c rest =>
    obtain ⟨-, known⟩ := Option.ite_none_right_eq_some.mp found
    obtain ⟨further, deeper, same⟩ := Option.map_eq_some_iff.mp known
    cases same
    exact Nat.succ_le_succ (nameRest?_le deeper)

theorem fits_numeral? {rest : List Char} {tag : Tag} {size : Nat}
    (found : numeral? rest = some (tag, size)) : Fits size rest := by
  rw [numeral?, Option.orElse_eq_orElse, Option.orElse_eq_or, Option.or_eq_some_iff] at found
  rcases found with float | ⟨-, whole⟩
  · obtain ⟨_, known, same⟩ := Option.map_eq_some_iff.mp float
    cases same
    exact fits_floatSize? known
  · exact fits_integer? whole

theorem exists_openerAt {size : Nat} {rest : List Char} {found : Match}
    (claimed : openerAt size rest = some found) :
    ∃ quote c others, rest = Quote.char quote :: c :: others ∧
      found = { tag := .stringOpen, size := size, state := .string quote } := by
  unfold openerAt at claimed
  split at claimed
  next q c others =>
    obtain ⟨-, known⟩ := Option.ite_none_left_eq_some.mp claimed
    obtain ⟨quote, isQuote, same⟩ := Option.map_eq_some_iff.mp known
    cases Quote.ofChar?_eq_some.mp isQuote
    exact ⟨quote, c, others, rfl, same.symm⟩
  next => cases claimed

theorem fits_openerAt {size : Nat} {rest : List Char} {found : Match}
    (claimed : openerAt size rest = some found) : found.size = size ∧ 2 ≤ rest.length := by
  obtain ⟨quote, c, others, same, rfl⟩ := exists_openerAt claimed
  rw [same, List.length_cons, List.length_cons]
  exact ⟨rfl, by omega⟩

/-- An opener claims less than there is: a character follows its quote. -/
theorem fits_openerRule {rest : List Char} {found : Match}
    (claimed : openerRule rest = some found) : 0 < found.size ∧ found.size < rest.length := by
  cases rest with
  | nil => cases claimed
  | cons c rest =>
    rw [openerRule] at claimed
    split at claimed
    · obtain ⟨same, bound⟩ := fits_openerAt claimed
      rw [same, List.length_cons]
      exact ⟨by omega, by omega⟩
    · obtain ⟨same, bound⟩ := fits_openerAt claimed
      rw [same]
      exact ⟨by omega, by omega⟩

theorem fits_startMatch {comments : Bool} {rest : List Char} (unread : rest ≠ []) :
    Fits (startMatch comments rest).size rest := by
  have present : 0 < rest.length := List.length_pos_iff.mpr unread
  have claim := startClaim comments rest
  generalize startMatch comments rest = found at claim ⊢
  cases claim with
  | comment => exact ⟨present, Nat.le_refl _⟩
  | opener claimed =>
    obtain ⟨positive, bound⟩ := fits_openerRule claimed
    exact ⟨positive, Nat.le_of_lt bound⟩
  | numeral known => exact fits_numeral? known
  | name known => exact fits_nameSize? known
  | openBracket => exact ⟨Nat.one_pos, present⟩
  | closeBracket => exact ⟨Nat.one_pos, present⟩
  | blanks positive => exact ⟨positive, length_takeWhile_le _ rest⟩
  | unclaimed => exact ⟨Nat.one_pos, present⟩

theorem fits_escapeSize? {rest : List Char} {size : Nat} (found : escapeSize? rest = some size) :
    Fits size rest := by
  obtain ⟨c, digits, escape⟩ := exists_isEscape found
  obtain ⟨further, same⟩ := escape.starts
  rw [Fits, escape.length, same, List.length_cons, List.length_cons, List.length_append]
  exact ⟨by omega, by omega⟩

theorem contentSize_le (quote : Quote) (rest : List Char) :
    contentSize quote rest ≤ rest.length := by
  induction rest with
  | nil => exact Nat.le_refl _
  | cons c rest ih =>
    rw [contentSize]
    split
    · exact Nat.succ_le_succ ih
    · exact Nat.zero_le _

theorem fits_stringMatch {quote : Quote} {rest : List Char} (unread : rest ≠ []) :
    Fits (stringMatch quote rest).size rest := by
  have single : Fits 1 rest := ⟨Nat.one_pos, List.length_pos_iff.mpr unread⟩
  have step := stringStep quote unread
  generalize stringMatch quote rest = claimed at step ⊢
  cases step with
  | escape found => exact fits_escapeSize? found
  | continuation => exact single
  | closer => exact single
  | content inside =>
    obtain ⟨c, after, rfl⟩ := List.exists_cons_of_ne_nil unread
    refine ⟨?_, contentSize_le quote _⟩
    rw [contentSize, if_pos inside]
    exact Nat.succ_pos _

/-- In every state and wherever a line goes on, the scanner is told to take one character at
least and none that is not there. -/
theorem fits_matchAt (comments : Bool) (state : State) {rest : List Char} (unread : rest ≠ []) :
    Fits (Scanner.matchAt comments state rest).size rest := by
  cases state with
  | start => exact fits_startMatch unread
  | string quote => exact fits_stringMatch unread

theorem Scanner.tag_next {scanner : Scanner} (unread : scanner.rest ≠ []) :
    scanner.next.1.tag = (matchAt scanner.comments scanner.state scanner.rest).tag := by
  unfold next
  split
  next ended => exact absurd ended unread
  next c rest same => rw [same]

theorem Scanner.state_next {scanner : Scanner} (unread : scanner.rest ≠ []) :
    scanner.next.2.state = (matchAt scanner.comments scanner.state scanner.rest).state := by
  unfold next
  split
  next ended => exact absurd ended unread
  next c rest same => rw [same]

theorem Scanner.continued_next {scanner : Scanner} (unread : scanner.rest ≠ []) :
    scanner.next.2.continued =
      (scanner.continued || scanner.next.1.tag == .stringContinuation) := by
  unfold next
  split
  next ended => exact absurd ended unread
  next => rfl

/-- The next lexeme is as long as the match claims. -/
theorem Scanner.text_next {scanner : Scanner} (unread : scanner.rest ≠ []) :
    scanner.next.1.text =
      scanner.rest.take (matchAt scanner.comments scanner.state scanner.rest).size := by
  have fits := fits_matchAt scanner.comments scanner.state unread
  unfold next
  split
  next ended => exact absurd ended unread
  next c rest same =>
    rw [same] at fits ⊢
    obtain ⟨size, positive⟩ := Nat.exists_eq_add_of_lt fits.1
    simp only [positive, Nat.zero_add, Nat.add_sub_cancel, List.take_succ_cons]

theorem Scanner.rest_next {scanner : Scanner} (unread : scanner.rest ≠ []) :
    scanner.next.2.rest =
      scanner.rest.drop (matchAt scanner.comments scanner.state scanner.rest).size := by
  have fits := fits_matchAt scanner.comments scanner.state unread
  unfold next
  split
  next ended => exact absurd ended unread
  next c rest same =>
    rw [same] at fits ⊢
    obtain ⟨size, positive⟩ := Nat.exists_eq_add_of_lt fits.1
    simp only [positive, Nat.zero_add, Nat.add_sub_cancel, List.drop_succ_cons]

/-- The whole of a step, told from what the rules claim. -/
theorem Scanner.next_of_matchAt {scanner : Scanner} {found : Match} (unread : scanner.rest ≠ [])
    (claimed : matchAt scanner.comments scanner.state scanner.rest = found) :
    scanner.next =
      (⟨found.tag, scanner.rest.take found.size⟩,
        { scanner with
          state := found.state
          rest := scanner.rest.drop found.size
          continued := scanner.continued || found.tag == .stringContinuation }) := by
  have lexeme : scanner.next.1 = ⟨found.tag, scanner.rest.take found.size⟩ := by
    rw [Lexeme.mk.injEq, tag_next unread, text_next unread, claimed]
    exact ⟨rfl, rfl⟩
  have continued := continued_next unread
  rw [lexeme] at continued
  apply Prod.ext lexeme
  rw [Scanner.mk.injEq, continued, state_next unread, rest_next unread, claimed]
  refine ⟨?_, rfl, rfl, rfl⟩
  unfold next
  split <;> rfl

end QueryHighlight.Scan
