import QueryHighlight.Proofs.Scan.Cutting
import QueryHighlight.Proofs.Scan.Respacing
import QueryHighlight.Proofs.Tokenizer.ReachableWords

/-!
Tokens that stand alone. The text of a name, a number or a bracket was cut out where its rule
stopped, and what follows there may be anything: a letter behind a float, a `$` behind a name, a
quote behind an `i`. Between blanks the same rule claims the same text, because it looks for nothing
behind it and no rule before it has a use for it. So such tokens can be printed with one space
between them and scanned again.
-/

namespace QueryHighlight.Scan
open Text

/-- Tags of the tokens that are recognised by their text alone. -/
def Tag.standsAlone : Tag → Bool
  | .identifier | .integer | .float | .hexInteger | .longInteger | .bracketOpen | .bracketClose =>
    true
  | _ => false

/-- A lexeme whose whole text is claimed under its tag where nothing follows it. -/
inductive StandsAlone : Lexeme → Prop
  | name {text : List Char} (reachable : isReachable text = true) : StandsAlone ⟨.identifier, text⟩
  | numeral {tag : Tag} {text : List Char} (known : numeral? text = some (tag, text.length)) :
      StandsAlone ⟨tag, text⟩
  | openBracket {c : Char} (isOpen : isOpenBracket c = true) : StandsAlone ⟨.bracketOpen, [c]⟩
  | closeBracket {c : Char} (isClose : isCloseBracket c = true) : StandsAlone ⟨.bracketClose, [c]⟩

variable {comments : Bool} {c : Char} {rest tail : List Char}

theorem startMatch_of_numeral? {tag : Tag} {size : Nat}
    (known : numeral? rest = some (tag, size)) : startMatch comments rest = { tag, size } := by
  cases rest with
  | nil => cases known
  | cons c rest =>
    have starts : c.isDigit = true ∨ c = '.' := by
      by_contra other
      rw [not_or, Bool.not_eq_true] at other
      rw [numeral?_eq_none other.1 other.2] at known
      cases known
    have apart (other : Char) (notDigit : other.isDigit = false) (notPoint : other ≠ '.') :
        c ≠ other := by
      rintro rfl
      rcases starts with digit | point
      · rw [notDigit] at digit
        cases digit
      · exact notPoint point
    have noComment : commentRule comments (c :: rest) = none := by
      simp [commentRule, apart '#' (by decide) (by decide)]
    have noQuote : Quote.ofChar? c = none := by
      simp [Quote.ofChar?, apart '"' (by decide) (by decide), apart '\'' (by decide) (by decide)]
    have noOpener := openerRule_eq_none noQuote (apart 'i' (by decide) (by decide)) rest
    simp only [startMatch, startRules, List.findSome?_cons, noComment, noOpener, numeralRule, known,
      Option.map_some, Option.getD_some]

theorem startMatch_of_bracketRule {found : Match}
    (claimed : bracketRule rest = some found) : startMatch comments rest = found := by
  cases rest with
  | nil => cases claimed
  | cons c rest =>
    have bracket : isOpenBracket c = true ∨ isCloseBracket c = true := by
      rw [bracketRule] at claimed
      split at claimed
      next isOpen => exact .inl isOpen
      next => exact .inr (Option.ite_none_right_eq_some.mp claimed).1
    obtain ⟨noHash, noQuote, noLetter, noDigit, noPoint, noName⟩ : c ≠ '#' ∧
        Quote.ofChar? c = none ∧ c ≠ 'i' ∧ c.isDigit = false ∧ c ≠ '.' ∧ isNameStart c = false := by
      simp only [isOpenBracket, isCloseBracket, Bool.or_eq_true, beq_iff_eq] at bracket
      rcases bracket with ((rfl | rfl) | rfl) | ((rfl | rfl) | rfl) <;> decide
    have noComment : commentRule comments (c :: rest) = none := by
      simp [commentRule, noHash]
    have unnamed : nameSize? (c :: rest) = none := by
      rw [nameSize?, noName, if_neg Bool.false_ne_true]
    simp only [startMatch, startRules, List.findSome?_cons, noComment, numeralRule, nameRule,
      openerRule_eq_none noQuote noLetter, numeral?_eq_none noDigit noPoint, unnamed, claimed,
      Option.map_none, Option.getD_some]

theorem bracketRule_of_isOpenBracket (isOpen : isOpenBracket c = true) (rest : List Char) :
    bracketRule (c :: rest) = some { tag := .bracketOpen, size := 1 } := if_pos isOpen

theorem bracketRule_of_isCloseBracket (isClose : isCloseBracket c = true) (rest : List Char) :
    bracketRule (c :: rest) = some { tag := .bracketClose, size := 1 } := by
  simp only [isCloseBracket, Bool.or_eq_true, beq_iff_eq] at isClose
  rcases isClose with (rfl | rfl) | rfl <;> rfl

theorem standsAlone_of_isNumeric {tag : Tag} (numeric : tag.isNumeric = true) :
    tag.standsAlone = true := by
  revert numeric
  cases tag <;> decide

namespace StandsAlone

variable {lexeme : Lexeme}

/-- What stands alone is claimed in the same way before everything that is silent. -/
theorem startMatch_append (alone : StandsAlone lexeme) (silent : Silent tail) :
    startMatch comments (lexeme.text ++ tail) =
      { tag := lexeme.tag, size := lexeme.text.length } := by
  cases alone with
  | name reachable => exact startMatch_append_of_isReachable comments reachable silent
  | @numeral tag text known =>
    have agree : Agree (text ++ []) (text ++ tail) := agree_append silent_nil silent text
    apply startMatch_of_numeral?
    rw [agree.numeral?_eq, List.append_nil, known]
  | openBracket isOpen => exact startMatch_of_bracketRule (bracketRule_of_isOpenBracket isOpen tail)
  | closeBracket isClose =>
    exact startMatch_of_bracketRule (bracketRule_of_isCloseBracket isClose tail)

theorem standsAlone_tag (alone : StandsAlone lexeme) : lexeme.tag.standsAlone = true := by
  cases alone with
  | name => rfl
  | numeral known => exact standsAlone_of_isNumeric (isNumeric_of_numeral? known)
  | openBracket => rfl
  | closeBracket => rfl

theorem not_silent (alone : StandsAlone lexeme) : ¬ Silent lexeme.text := by
  intro silent
  cases alone with
  | name reachable =>
    have known := nameSize?_of_isReachable reachable
    rw [nameSize?_of_silent silent] at known
    cases known
  | numeral known =>
    rw [numeral?_of_silent silent] at known
    cases known
  | openBracket isOpen =>
    have known := bracketRule_of_isOpenBracket isOpen []
    rw [bracketRule_of_silent silent] at known
    cases known
  | closeBracket isClose =>
    have known := bracketRule_of_isCloseBracket isClose []
    rw [bracketRule_of_silent silent] at known
    cases known

theorem exists_head (alone : StandsAlone lexeme) :
    ∃ c others, lexeme.text = c :: others ∧ isBlank c = false := by
  cases same : lexeme.text with
  | nil => exact absurd silent_nil (same ▸ alone.not_silent)
  | cons c others =>
    refine ⟨c, others, rfl, Bool.eq_false_iff.mpr fun blank => ?_⟩
    exact absurd (silent_of_isBlank blank) (same ▸ alone.not_silent)

end StandsAlone

theorem standsAlone_of_startClaim {found : Match} (claim : StartClaim comments rest found)
    (tag : found.tag.standsAlone = true) : StandsAlone ⟨found.tag, rest.take found.size⟩ := by
  cases claim with
  | numeral known =>
    apply StandsAlone.numeral
    rw [List.length_take, Nat.min_eq_left (fits_numeral? known).2]
    exact numeral?_take known
  | name known => exact .name (isReachable_of_nameSize? known)
  | openBracket starts isOpen =>
    subst starts
    exact .openBracket isOpen
  | closeBracket starts isClose =>
    subst starts
    exact .closeBracket isClose
  | opener claimed =>
    obtain ⟨quote, opens, -, -⟩ := exists_quote_of_openerRule claimed
    rw [opens] at tag
    cases tag
  | comment => cases tag
  | blanks => cases tag
  | unclaimed => cases tag

/-- Wherever a name, a number or a bracket was found, its text stands alone. -/
theorem standsAlone_of_mem {entry : State} {line : String} {lexeme : Lexeme}
    (member : lexeme ∈ (scanLine comments entry line).lexemes)
    (tag : lexeme.tag.standsAlone = true) : StandsAlone lexeme := by
  obtain ⟨earlier, middle, run, unread, rfl⟩ := Scanner.exists_emits_of_mem_drain member
  have lexeme_eq := congrArg Prod.fst (Scanner.next_of_matchAt unread rfl)
  dsimp only at lexeme_eq
  rw [lexeme_eq] at tag ⊢
  generalize middle.state = state at tag ⊢
  cases state with
  | start => exact standsAlone_of_startClaim (startClaim _ _) tag
  | string quote =>
    have step := stringStep quote unread
    simp only [Scanner.matchAt] at tag
    generalize stringMatch quote middle.rest = found at step tag
    cases step <;> cases tag

/-- Words with a space between any two of them. -/
def spaced (words : List Lexeme) : List Lexeme := words.intersperse ⟨.whitespace, [' ']⟩

theorem spaced_cons_cons (word second : Lexeme) (others : List Lexeme) :
    spaced (word :: second :: others) =
      word :: ⟨.whitespace, [' ']⟩ :: spaced (second :: others) := List.intersperse_cons_cons

theorem toList_intercalate_space (words : List Lexeme) :
    (" ".intercalate (words.map fun word => String.ofList word.text)).toList =
      Lexeme.texts (spaced words) := by
  have texts_eq : (String.toList ∘ fun word : Lexeme => String.ofList word.text) = Lexeme.text :=
    funext fun _ => String.toList_ofList
  rw [String.toList_intercalate, List.map_map, texts_eq]
  induction words with
  | nil => rfl
  | cons word others ih =>
    cases others with
    | nil => rfl
    | cons second others =>
      simp only [List.map_cons] at ih ⊢
      rw [List.intercalate_cons_cons, ih, spaced_cons_cons, List.append_assoc]
      rfl

theorem exists_texts_spaced_cons (word : Lexeme) (others : List Lexeme) :
    ∃ behind, Lexeme.texts (spaced (word :: others)) = word.text ++ behind := by
  cases others with
  | nil => exact ⟨[], rfl⟩
  | cons second others => exact ⟨_, rfl⟩

namespace Scanner

theorem next_of_standsAlone {scanner : Scanner} {word : Lexeme} (alone : StandsAlone word)
    (outside : scanner.state = .start) (starts : scanner.rest = word.text ++ tail)
    (silent : Silent tail) : scanner.next = (word, { scanner with rest := tail }) := by
  refine next_of_token outside starts ?_ (alone.startMatch_append silent) ?_
  · obtain ⟨c, others, same, -⟩ := alone.exists_head
    rw [same]
    exact List.cons_ne_nil c others
  · intro continues
    have tag := alone.standsAlone_tag
    rw [continues] at tag
    cases tag

/-- Words that stand alone are found again between their spaces, one after the other. -/
theorem drain_spaced {words : List Lexeme} (alone : ∀ word ∈ words, StandsAlone word) :
    drain { comments, state := .start, rest := Lexeme.texts (spaced words) } =
      ⟨spaced words, .start⟩ := by
  induction words with
  | nil => exact drain_of_ended rfl
  | cons word others ih =>
    obtain ⟨first, later⟩ := List.forall_mem_cons.mp alone
    obtain ⟨c, further, text_eq, -⟩ := first.exists_head
    -- The last word has the end of the line behind it, every other one a space.
    cases others with
    | nil =>
      let scanner : Scanner := { comments, state := .start, rest := word.text ++ [] }
      have unread : scanner.rest ≠ [] := by simp [scanner, text_eq]
      have step : scanner.next = (word, { scanner with rest := [] }) :=
        next_of_standsAlone first rfl rfl silent_nil
      show scanner.drain = ⟨[word], .start⟩
      rw [drain_of_unread unread, step, drain_of_ended rfl]
      rfl
    | cons second others =>
      let behind := Lexeme.texts (spaced (second :: others))
      let scanner : Scanner := { comments, state := .start, rest := word.text ++ ' ' :: behind }
      have unread : scanner.rest ≠ [] := by simp [scanner]
      have blank : isBlank ' ' = true := by decide
      have step : scanner.next = (word, { scanner with rest := ' ' :: behind }) :=
        next_of_standsAlone first rfl rfl (silent_of_isBlank blank)
      have ends : behind.takeWhile isBlank = [] := by
        obtain ⟨d, more, second_eq, notBlank⟩ := (later second List.mem_cons_self).exists_head
        obtain ⟨left, behind_eq⟩ := exists_texts_spaced_cons second others
        rw [show behind = _ from behind_eq, second_eq, List.cons_append,
          List.takeWhile_cons_of_neg (Bool.eq_false_iff.mp notBlank)]
      have space : next { scanner with rest := ' ' :: behind } =
          (⟨.whitespace, [' ']⟩, { scanner with rest := behind }) :=
        next_of_blanks rfl rfl (List.cons_ne_nil _ _) (List.forall_mem_singleton.mpr blank) ends
      show scanner.drain = ⟨word :: ⟨.whitespace, [' ']⟩ :: spaced (second :: others), .start⟩
      rw [drain_of_unread unread, step, drain_of_unread (List.cons_ne_nil _ _), space,
        ih later]

end Scanner

/-- Names, numbers and brackets, from whatever lines they come, survive being printed with a space
between any two of them: scanned again, they come out under the same tags with the same texts, and
nothing else but the spaces does. -/
theorem scanLine_spaced (comments : Bool) (words : List Lexeme)
    (scanned : ∀ word ∈ words, word.tag.standsAlone = true ∧
      ∃ comments entry line, word ∈ (scanLine comments entry line).lexemes) :
    scanLine comments .start (" ".intercalate (words.map fun word => String.ofList word.text)) =
      ⟨spaced words, .start⟩ := by
  have alone : ∀ word ∈ words, StandsAlone word := by
    intro word member
    obtain ⟨tag, _, _, _, present⟩ := scanned word member
    exact standsAlone_of_mem present tag
  rw [scanLine, toList_intercalate_space]
  exact Scanner.drain_spaced alone

/-- Cut out before a dead quote, a letter, a `$` and a sign: with spaces between them they are the
same tokens. -/
theorem scanLine_spaced_cut_words :
    ⟨.identifier, ['i']⟩ ∈ (scanLine false .start "i'").lexemes ∧
      ⟨.float, ['3', '.']⟩ ∈ (scanLine false (.string .double) "\"3.e").lexemes ∧
      ⟨.identifier, ['a']⟩ ∈ (scanLine true .start "a$").lexemes ∧
      ⟨.longInteger, ['0', 'x', 'F', 'L']⟩ ∈ (scanLine true .start "(0xFL-").lexemes ∧
      scanLine true .start "i 3. a 0xFL" =
        ⟨[⟨.identifier, ['i']⟩, ⟨.whitespace, [' ']⟩, ⟨.float, ['3', '.']⟩, ⟨.whitespace, [' ']⟩,
          ⟨.identifier, ['a']⟩, ⟨.whitespace, [' ']⟩, ⟨.longInteger, ['0', 'x', 'F', 'L']⟩],
          .start⟩ := by
  have letter : ⟨.identifier, ['i']⟩ ∈ (scanLine false .start "i'").lexemes := by decide +kernel
  have point : ⟨.float, ['3', '.']⟩ ∈ (scanLine false (.string .double) "\"3.e").lexemes := by
    decide +kernel
  have name : ⟨.identifier, ['a']⟩ ∈ (scanLine true .start "a$").lexemes := by decide +kernel
  have long : ⟨.longInteger, ['0', 'x', 'F', 'L']⟩ ∈ (scanLine true .start "(0xFL-").lexemes := by
    decide +kernel
  let words : List Lexeme := [⟨.identifier, ['i']⟩, ⟨.float, ['3', '.']⟩, ⟨.identifier, ['a']⟩,
    ⟨.longInteger, ['0', 'x', 'F', 'L']⟩]
  have scanned : ∀ word ∈ words, word.tag.standsAlone = true ∧
      ∃ comments entry line, word ∈ (scanLine comments entry line).lexemes := by
    simp only [words, List.forall_mem_cons, List.not_mem_nil, false_implies, implies_true, and_true]
    exact ⟨⟨rfl, _, _, _, letter⟩, ⟨rfl, _, _, _, point⟩, ⟨rfl, _, _, _, name⟩,
      ⟨rfl, _, _, _, long⟩⟩
  have text_eq :
      " ".intercalate (words.map fun word => String.ofList word.text) = "i 3. a 0xFL" := by
    decide +kernel
  have printed := scanLine_spaced true words scanned
  rw [text_eq] at printed
  exact ⟨letter, point, name, long, printed⟩

end QueryHighlight.Scan
