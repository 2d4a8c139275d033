import QueryHighlight.Proofs.Scan.NumeralPatterns

/-!
Between tokens the scanner does what the table of regular expressions says. It reads a line from
left to right and decides by the first character where it can; the table is tried from the top and
backtracks. Both come to the same tag and to the same end of the match, everywhere in every line.
-/

namespace QueryHighlight.Scan
open Text Pattern

/-- The place behind a match, under the tag of the match. -/
def Place.behind (place : Place) (found : Match) : Place :=
  (place.skip found.size).tagged found.tag

theorem dot_eq_one : dot = one fun c => !isTerminator c := by
  rw [dot, inClass_terminator]

theorem preferred_comment (place : Place) :
    comment.preferred place = (commentRule true place.after).map place.behind := by
  rw [preferred_eq_tryThen, comment, tryThen_group, tryThen_seq, tryThen_seq, literal, tryThen_one,
    dot_eq_one, tryThen_star commits_lineEnd, tryThen_lineEnd, Place.after_skip,
    drop_runLength_isEmpty, Place.skip_skip, Place.after_skip]
  cases place.after with
  | nil => rfl
  | cons c rest =>
    rw [List.head?_cons, Option.any_some, List.drop_succ_cons, List.drop_zero, commentRule,
      Bool.true_and, List.not_any_eq_all_not]
    by_cases starts : (c == '#') = true
    · by_cases clear : rest.all (fun c => !isTerminator c) = true
      · rw [if_pos starts, if_pos clear, starts, clear, runLength_of_all clear, Nat.add_comm]
        rfl
      · rw [if_neg clear, Bool.eq_false_iff.mpr clear, Bool.and_false, ite_self]
        rfl
    · rw [if_neg starts, Bool.eq_false_iff.mpr starts, Bool.false_and]
      rfl

/-- A quote with a character behind it that does not end the line. -/
def opens (quote : Quote) : List Char → Bool
  | q :: c :: _ => q == quote.char && !isTerminator c
  | _ => false

theorem tryThen_quote {α : Type} (next : Place → Option α) (quote : Quote) (place : Place) :
    (seq (literal quote.char) (lookahead dot)).tryThen next place =
      if opens quote place.after then next (place.skip 1) else none := by
  rw [tryThen_seq, literal, tryThen_one, dot_eq_one, tryThen_lookahead_one, Place.after_skip]
  cases place.after with
  | nil => rfl
  | cons q others =>
    cases others with
    | nil => exact ite_self _
    | cons c rest =>
      show (if (q == quote.char) = true then (if (!isTerminator c) = true then _ else _) else _) =
        if (q == quote.char && !isTerminator c) = true then _ else _
      cases q == quote.char <;> rfl

theorem openerAt_eq_ite (size : Nat) (rest : List Char) :
    openerAt size rest =
      if opens .double rest then some ⟨.stringOpen, size, .string .double⟩
      else if opens .single rest then some ⟨.stringOpen, size, .string .single⟩
      else none := by
  match rest with
  | [] => rfl
  | [q] => rfl
  | q :: c :: rest =>
    unfold openerAt opens
    by_cases ends : isTerminator c = true
    · simp [ends]
    · by_cases double : q = '"'
      · simp [ends, double, Quote.ofChar?, Quote.char]
      · by_cases single : q = '\'' <;> simp [ends, double, single, Quote.ofChar?, Quote.char]

/-- Whether or not the letter stands in front, the quote has to be found. -/
theorem preferred_opener (quote : Quote) (place : Place) :
    (opener quote).preferred place =
      if place.after.head? = some 'i' then
        if opens quote place.after.tail then some (place.behind ⟨.stringOpen, 2, .start⟩) else none
      else if opens quote place.after then some (place.behind ⟨.stringOpen, 1, .start⟩)
      else none := by
  rw [preferred_eq_tryThen, opener, tryThen_group, tryThen_seq, tryThen_optional, literal,
    tryThen_one, tryThen_quote, tryThen_quote, Place.after_skip, Place.skip_skip, List.drop_one]
  by_cases letter : place.after.head? = some 'i'
  · have noQuote : opens quote place.after = false := by
      obtain ⟨rest, same⟩ := List.head?_eq_some_iff.mp letter
      rw [same]
      cases quote <;> cases rest <;> rfl
    rw [if_pos letter, letter, noQuote, if_neg Bool.false_ne_true, Option.or_none]
    rfl
  · have other : ¬place.after.head?.any (· == 'i') = true := by
      intro found
      obtain ⟨c, first, same⟩ := (Option.any_eq_true _ _).mp found
      exact letter (first.trans (congrArg some (eq_of_beq same)))
    rw [if_neg letter, if_neg other, Option.none_or]
    rfl

theorem preferred_openers (place : Place) :
    ((opener .double).preferred place).or ((opener .single).preferred place) =
      (openerRule place.after).map place.behind := by
  rw [preferred_opener, preferred_opener]
  cases place.after with
  | nil => rfl
  | cons c rest =>
    rw [openerRule, openerAt_eq_ite, openerAt_eq_ite, List.head?_cons, List.tail_cons]
    by_cases letter : c = 'i'
    · rw [if_pos (congrArg some letter), if_pos (congrArg some letter), if_pos letter]
      cases opens .double rest <;> cases opens .single rest <;> rfl
    · have other : ¬some c = some 'i' := fun same => letter (Option.some.inj same)
      rw [if_neg other, if_neg other, if_neg letter]
      cases opens .double (c :: rest) <;> cases opens .single (c :: rest) <;> rfl

theorem preferred_numerals (place : Place) :
    (float.preferred place).or ((longInteger.preferred place).or (wholeNumber.preferred place)) =
      (numeralRule place.after).map place.behind := by
  rw [preferred_float, preferred_longInteger, preferred_wholeNumber, numeralRule, Option.map_map,
    numeral?, integer?, Option.orElse_eq_orElse, Option.orElse_eq_or, Option.orElse_eq_or,
    Option.map_or, Option.map_or, Option.map_map, Option.map_map]
  rfl

/-- A name backs off to the last word boundary in its run; no other rule gives anything back. -/
theorem tryThen_nameRest {α : Type} (f : Place → α) {place : Place} {b : Char}
    (last : place.before.head? = some b) :
    (star (one isNamePart)).tryThen (wordBoundary.tryThen fun ending => some (f ending)) place =
      (nameRest? b place.after).map fun size => f (place.skip size) := by
  induction same : place.after generalizing place b with
  | nil =>
    rw [tryThen_star_one, tryThen_wordBoundary, same, last, nameRest?, List.head?_nil,
      Option.any_none, if_neg Bool.false_ne_true, Option.any_some, Option.any_none]
    cases isWord b <;> rfl
  | cons c rest ih =>
    have first : place.after.head? = some c := by rw [same]; rfl
    have boundary : wordBoundary.tryThen (fun ending => some (f ending)) place =
        (if isWord b != isWord c then some 0 else none).map fun size => f (place.skip size) := by
      rw [tryThen_wordBoundary, last, first, Option.any_some, Option.any_some]
      split <;> rfl
    rw [tryThen_star_one, boundary, first, Option.any_some, nameRest?]
    by_cases member : isNamePart c = true
    · have step := Place.skip_one same
      have last' : (place.skip 1).before.head? = some c := by
        rw [step]
        rfl
      have behind : (place.skip 1).after = rest := by rw [step]
      have deeper := ih last' behind
      rw [if_pos member, if_pos member, deeper]
      cases nameRest? c rest with
      | none => rfl
      | some size => simp only [Option.map_some, Option.some_or, Place.skip_skip, Nat.add_comm]
    · rw [if_neg member, if_neg member]

theorem preferred_name (place : Place) :
    Pattern.name.preferred place = (nameRule place.after).map place.behind := by
  rw [preferred_eq_tryThen, Pattern.name, tryThen_group, tryThen_seq, tryThen_seq, oneOf, namePart,
    oneOf, inClass_nameStart, inClass_namePart, tryThen_one, nameRule]
  cases same : place.after with
  | nil => rfl
  | cons c rest =>
    rw [List.head?_cons, Option.any_some, nameSize?]
    by_cases starts : isNameStart c = true
    · have step := Place.skip_one same
      have behind : (place.skip 1).after = rest := by rw [step]
      rw [if_pos starts, if_pos starts, tryThen_nameRest (fun ending => ending.tagged .identifier)
        (b := c) (by rw [step]; rfl), behind, Option.map_map, Option.map_map]
      simp only [Function.comp_def, Place.skip_skip, Nat.add_comm]
      rfl
    · rw [if_neg starts, if_neg starts]
      rfl

theorem preferred_bracket (tag : Tag) (isBracket : Char → Bool) (place : Place) :
    (group tag (one isBracket)).preferred place =
      if place.after.head?.any isBracket then some (place.behind { tag := tag, size := 1 })
      else none := by
  rw [preferred_eq_tryThen, tryThen_group, tryThen_one]
  rfl

theorem preferred_brackets (place : Place) :
    (openBracket.preferred place).or (closeBracket.preferred place) =
      (bracketRule place.after).map place.behind := by
  have opening : inClass [('(', '('), ('[', '['), ('\x7b', '\x7b')] = isOpenBracket := by
    funext c
    simp only [inClass_cons, inClass_nil, between_self, isOpenBracket, Bool.or_false, Bool.or_assoc]
  have closing : inClass [(')', ')'), (']', ']'), ('\x7d', '\x7d')] = isCloseBracket := by
    funext c
    simp only [inClass_cons, inClass_nil, between_self, isCloseBracket, Bool.or_false,
      Bool.or_assoc]
  rw [openBracket, closeBracket, oneOf, oneOf, opening, closing, preferred_bracket,
    preferred_bracket]
  cases place.after with
  | nil => rfl
  | cons c rest =>
    rw [List.head?_cons, Option.any_some, Option.any_some, bracketRule]
    cases isOpenBracket c <;> cases isCloseBracket c <;> rfl

theorem blankRule_eq_ite (rest : List Char) :
    blankRule rest =
      if 0 < runLength isBlank rest then
        some { tag := .whitespace, size := runLength isBlank rest }
      else none := rfl

theorem preferred_blanks (place : Place) :
    blanks.preferred place = (blankRule place.after).map place.behind := by
  have commits : Commits isBlank fun ending : Place => some (ending.tagged .whitespace) :=
    commits_of_isSome fun _ => rfl
  rw [preferred_eq_tryThen, blanks, tryThen_group, blank, oneOf, inClass_blank,
    tryThen_plus commits.within, blankRule_eq_ite]
  split <;> rfl

theorem preferred_invalid {place : Place} (unread : place.after ≠ []) :
    Pattern.invalid.preferred place = some (place.behind { tag := .invalid, size := 1 }) := by
  rw [preferred_eq_tryThen, Pattern.invalid, tryThen_group, anything, tryThen_one]
  obtain ⟨c, rest, same⟩ := List.exists_cons_of_ne_nil unread
  rw [same]
  rfl

/-- The table ends where the scanner's rules end, and under the same tag. -/
theorem firstEnding_eq_behind (comments : Bool) {place : Place} (unread : place.after ≠ []) :
    firstEnding comments place = some (place.behind (startMatch comments place.after)) := by
  have comment_eq : (if comments then [comment] else []).findSome? (fun rule => rule.preferred place) =
      (commentRule comments place.after).map place.behind := by
    cases comments with
    | true =>
      rw [← preferred_comment]
      exact List.findSome?_singleton
    | false => cases place.after <;> rfl
  have last (found : Option Match) (default : Match) :
      (found.map place.behind).or (some (place.behind default)) =
        some (place.behind (found.getD default)) := by
    cases found <;> rfl
  rw [firstEnding, ruleTable, List.findSome?_append, comment_eq]
  simp only [findSome?_cons_eq_or, List.findSome?_nil, Option.or_none]
  rw [preferred_invalid unread, startMatch, ← last]
  simp only [startRules, findSome?_cons_eq_or, List.findSome?_nil, Option.or_none, Option.map_or,
    ← preferred_openers, ← preferred_numerals, ← preferred_name, ← preferred_brackets,
    ← preferred_blanks, Option.or_assoc]

/-- Between tokens, and anywhere before the end of a line, the next lexeme has the tag and the
length that the table gives. -/
theorem next_eq_tableMatch (comments continued : Bool) (before : List Char) (c : Char)
    (rest : List Char) :
    let scanner : Scanner := { comments, state := .start, rest := c :: rest, continued }
    some (scanner.next.1.tag, scanner.next.1.length) = tableMatch comments before (c :: rest) := by
  intro scanner
  have unread : scanner.rest ≠ [] := List.cons_ne_nil c rest
  have tag_eq : scanner.next.1.tag = (startMatch comments (c :: rest)).tag := rfl
  have length_eq : scanner.next.1.length =
      byteLength ((c :: rest).take (startMatch comments (c :: rest)).size) :=
    congrArg byteLength (Scanner.text_next unread)
  have behind_eq (place : Place) (found : Match) :
      (place.behind found).offset - place.offset = byteLength (place.after.take found.size) := by
    rw [← Nat.add_sub_cancel (byteLength _) place.offset, ← Place.offset_skip]
    rfl
  rw [tableMatch, firstEnding_eq_behind comments unread, Option.bind_some, behind_eq, tag_eq,
    length_eq]
  rfl

end QueryHighlight.Scan
