import QueryHighlight.Proofs.Scan.MaximalStep
import QueryHighlight.Proofs.Scan.ReadAlike
import QueryHighlight.Proofs.Scan.RuleTable
import QueryHighlight.Tokenizer

/-!
Words that a vocabulary can make use of. Only the text of a name is ever looked up, so a word in a
set takes effect only if some line has a name with that text. Which words these are can be told from
the word: scanned alone it has to come out in one piece, and whatever surrounds a name in its line,
it spells such a word.
-/

namespace QueryHighlight
open Scan Text

variable {c : Char} {word tail : List Char}

theorem isDigit_of_isNameStart (starts : isNameStart c = true) : c.isDigit = false := by
  simp only [isNameStart, isAlpha_eq_between, isDigit_eq_between, Bool.or_eq_true,
    Bool.and_eq_true, Bool.and_eq_false_iff, decide_eq_true_eq, decide_eq_false_iff_not,
    beq_iff_eq, Char.le_def, UInt32.le_iff_toNat_le, ← Char.val_inj, ← UInt32.toNat_inj] at starts ⊢
  have upper : 'A'.val.toNat = 65 := rfl
  have lower : 'a'.val.toNat = 97 := rfl
  have underscore : '_'.val.toNat = 95 := rfl
  have dollar : '$'.val.toNat = 36 := rfl
  have zero : '0'.val.toNat = 48 := rfl
  have nine : '9'.val.toNat = 57 := rfl
  omega

theorem ofChar?_of_isNamePart (part : isNamePart c = true) : Quote.ofChar? c = none := by
  cases known : Quote.ofChar? c with
  | none => rfl
  | some quote =>
    rw [Quote.ofChar?_eq_some.mp known] at part
    cases quote <;> cases part

/-- No quote is part of a name, so a reachable word opens no literal, not even the letter `i`, if no
quote follows it. -/
theorem openerRule_append_of_isReachable (reachable : isReachable word = true)
    (silent : Silent tail) : openerRule (word ++ tail) = none := by
  rw [isReachable, Bool.and_eq_true, Bool.and_eq_true] at reachable
  obtain ⟨⟨starts, parts⟩, -⟩ := reachable
  have noQuote {c : Char} (member : c ∈ word) : Quote.ofChar? c = none :=
    ofChar?_of_isNamePart (List.all_eq_true.mp parts c member)
  cases word with
  | nil => cases starts
  | cons c rest =>
    by_cases letter : c = 'i'
    · rw [List.cons_append, openerRule, if_pos letter]
      cases rest with
      | nil => exact openerAt_of_silent silent 2
      | cons d others => exact openerAt_eq_none (noQuote (by simp)) 2 (others ++ tail)
    · exact openerRule_eq_none (noQuote List.mem_cons_self) letter (rest ++ tail)

/-- Of the rules between tokens only the one for names claims a reachable word, and all of it, where
nothing that could belong to a token follows. -/
theorem startMatch_append_of_isReachable (comments : Bool) (reachable : isReachable word = true)
    (silent : Silent tail) :
    startMatch comments (word ++ tail) = { tag := .identifier, size := word.length } := by
  have noOpener := openerRule_append_of_isReachable reachable silent
  have agree : Agree (word ++ []) (word ++ tail) := agree_append silent_nil silent word
  have whole : nameSize? (word ++ tail) = some word.length := by
    rw [agree.nameSize?_eq, List.append_nil, nameSize?_of_isReachable reachable]
  rw [isReachable, Bool.and_eq_true, Bool.and_eq_true] at reachable
  obtain ⟨⟨starts, -⟩, -⟩ := reachable
  cases word with
  | nil => cases starts
  | cons c rest =>
    have first : isNameStart c = true := starts
    have noHash : c ≠ '#' := by
      rintro rfl
      cases first
    have noPoint : c ≠ '.' := by
      rintro rfl
      cases first
    have noComment : commentRule comments (c :: rest ++ tail) = none := by
      simp [commentRule, noHash]
    have noNumeral : numeral? (c :: rest ++ tail) = none :=
      numeral?_eq_none (isDigit_of_isNameStart first) noPoint
    simp only [startMatch, startRules, List.findSome?_cons, noComment, noOpener, numeralRule,
      noNumeral, Option.map_none, nameRule, whole, Option.map_some, Option.getD_some]

/-- A reachable word is a line of its own with a single name in it. -/
theorem scanLine_of_isReachable (comments : Bool) {word : String}
    (reachable : isReachable word.toList = true) :
    scanLine comments .start word = ⟨[⟨.identifier, word.toList⟩], .start⟩ := by
  let start : Scanner := { comments, state := .start, rest := word.toList }
  have found : Scanner.matchAt start.comments start.state start.rest =
      { tag := .identifier, size := word.toList.length } := by
    have claimed := startMatch_append_of_isReachable comments reachable silent_nil
    rw [List.append_nil] at claimed
    exact claimed
  have unread : start.rest ≠ [] := by
    intro ended
    rw [show word.toList = [] from ended] at reachable
    cases reachable
  exact Scanner.drain_of_whole unread found

/-- Whatever stands before and behind it, a name spells a reachable word. -/
theorem isReachable_next {scanner : Scanner} (unread : scanner.rest ≠ [])
    (name : scanner.next.1.tag = .identifier) : isReachable scanner.next.1.text = true := by
  rw [Scanner.tag_next unread] at name
  rw [Scanner.text_next unread]
  have step := maximalStep unread (by rw [name]; rfl)
  generalize Scanner.matchAt scanner.comments scanner.state scanner.rest = found at step name ⊢
  generalize scanner.state = state at step
  cases step with
  | name known => exact isReachable_of_nameSize? known
  | blanks => cases name
  | content => cases name

theorem isReachable_of_mem {comments : Bool} {entry : State} {line : String} {lexeme : Lexeme}
    (member : lexeme ∈ (scanLine comments entry line).lexemes)
    (name : lexeme.tag = .identifier) : isReachable lexeme.text = true := by
  obtain ⟨earlier, middle, run, unread, rfl⟩ := Scanner.exists_emits_of_mem_drain member
  exact isReachable_next unread name

/-- The kinds that a word has by being in one of the sets. -/
def Kind.isOfWord : Kind → Bool
  | .function | .constant | .keyword => true
  | _ => false

def Vocabulary.has (vocabulary : Vocabulary) (word : String) : Bool :=
  vocabulary.functions.contains word || vocabulary.constants.contains word ||
    vocabulary.keywords.contains word

theorem Vocabulary.isOfWord_classify (vocabulary : Vocabulary) (word : String) :
    (vocabulary.classify word).isOfWord = vocabulary.has word := by
  unfold classify has
  cases vocabulary.functions.contains word <;> cases vocabulary.constants.contains word <;>
    cases vocabulary.keywords.contains word <;> rfl

namespace QueryTokenizer

variable {tokenizer : QueryTokenizer}

theorem isOfWord_kindOf (lexeme : Lexeme) :
    (tokenizer.kindOf lexeme).isOfWord = true ↔
      lexeme.tag = .identifier ∧ tokenizer.vocabulary.has (String.ofList lexeme.text) = true := by
  obtain ⟨tag, text⟩ := lexeme
  cases tag with
  | identifier =>
    simp only [kindOf, Vocabulary.isOfWord_classify, true_and]
  | _ => simp [kindOf, Kind.isOfWord]

theorem exists_lexeme_of_mem_placed {offset : Nat} {lexemes : List Lexeme} {token : Token}
    (member : token ∈ tokenizer.placed offset lexemes) :
    ∃ lexeme ∈ lexemes, token.kind = tokenizer.kindOf lexeme ∧
      token.text = String.ofList lexeme.text := by
  induction lexemes generalizing offset with
  | nil => cases member
  | cons lexeme rest ih =>
    rcases List.mem_cons.mp member with rfl | later
    · exact ⟨lexeme, List.mem_cons_self, rfl, rfl⟩
    · obtain ⟨other, present, same⟩ := ih later
      exact ⟨other, List.mem_cons_of_mem _ present, same⟩

end QueryTokenizer

/-- A tokenizer gives a word the kind of one of its sets in some line if and only if one of the
sets has the word and some line can spell it as a name. -/
theorem exists_token_iff (tokenizer : QueryTokenizer) (word : String) :
    (∃ entry line token, token ∈ (tokenizeLine tokenizer entry line).tokens ∧
      token.text = word ∧ token.kind.isOfWord = true) ↔
    tokenizer.vocabulary.has word = true ∧ isReachable word.toList = true := by
  constructor
  · rintro ⟨entry, line, token, member, rfl, ofWord⟩
    obtain ⟨lexeme, present, kind, text⟩ := QueryTokenizer.exists_lexeme_of_mem_placed member
    rw [kind, QueryTokenizer.isOfWord_kindOf] at ofWord
    obtain ⟨name, known⟩ := ofWord
    rw [text, String.toList_ofList]
    exact ⟨known, isReachable_of_mem present name⟩
  · rintro ⟨known, reachable⟩
    have scanned := scanLine_of_isReachable tokenizer.comments reachable
    let lexeme : Lexeme := ⟨.identifier, word.toList⟩
    have text : String.ofList lexeme.text = word := String.ofList_toList
    let token : Token := ⟨tokenizer.kindOf lexeme, String.ofList lexeme.text, ⟨0, 0 + lexeme.length⟩⟩
    refine ⟨.start, word, token, ?_, text, ?_⟩
    · show token ∈ tokenizer.placed 0 (scanLine tokenizer.comments .start word).lexemes
      rw [scanned]
      exact List.mem_cons_self
    · rw [QueryTokenizer.isOfWord_kindOf, text]
      exact ⟨rfl, known⟩

/-- The test for reachable words says what the scanner does: a word passes if and only if it is
scanned as a single name, and if and only if some name in some line spells it. So a tokenizer gives
a word the kind of one of its sets, anywhere, if and only if a set has the word and it passes. -/
theorem isReachable_iff (word : String) :
    (isReachable word.toList = true ↔
      ∀ comments, scanLine comments .start word = ⟨[⟨.identifier, word.toList⟩], .start⟩) ∧
    (isReachable word.toList = true ↔
      ∃ comments entry line lexeme, lexeme ∈ (scanLine comments entry line).lexemes ∧
        lexeme.tag = .identifier ∧ lexeme.text = word.toList) ∧
    ∀ tokenizer : QueryTokenizer,
      (∃ entry line token, token ∈ (tokenizeLine tokenizer entry line).tokens ∧
        token.text = word ∧ token.kind.isOfWord = true) ↔
      tokenizer.vocabulary.has word = true ∧ isReachable word.toList = true := by
  have alone : isReachable word.toList = true →
      ∀ comments, scanLine comments .start word = ⟨[⟨.identifier, word.toList⟩], .start⟩ :=
    fun reachable comments => scanLine_of_isReachable comments reachable
  have single : (⟨.identifier, word.toList⟩ : Lexeme) ∈ [(⟨.identifier, word.toList⟩ : Lexeme)] :=
    List.mem_singleton_self _
  refine ⟨⟨alone, ?_⟩, ⟨?_, ?_⟩, ?_⟩
  · intro scanned
    have member : (⟨.identifier, word.toList⟩ : Lexeme) ∈ (scanLine true .start word).lexemes := by
      rw [scanned true]
      exact single
    exact isReachable_of_mem member rfl
  · intro reachable
    refine ⟨true, .start, word, ⟨.identifier, word.toList⟩, ?_, rfl, rfl⟩
    rw [alone reachable true]
    exact single
  · rintro ⟨comments, entry, line, lexeme, member, name, text⟩
    rw [← text]
    exact isReachable_of_mem member name
  · intro tokenizer
    exact exists_token_iff tokenizer word

end QueryHighlight
