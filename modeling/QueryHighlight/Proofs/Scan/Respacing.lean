import QueryHighlight.Proofs.Scan.MaximalStep
import QueryHighlight.Proofs.Scan.ReadAlike
import QueryHighlight.Proofs.Scan.Restart

/-!
White space may be replaced by other white space. A token that ends before a blank was found
without regard to which blank that is and to what stands behind it: the rules look ahead, for a
boundary, for an exponent, for the digits of an escape or for a character behind a quote, but to all
of these questions every blank that leaves the line in one piece gives the same answer. So the
tokens before some white space stay as they are when it changes, and those behind it start anew.
-/

namespace QueryHighlight.Scan
open Text

/-- White space that leaves a line in one piece. -/
def isInlineBlank (c : Char) : Bool := isBlank c && !isTerminator c

theorem isBlank_of_isInlineBlank {c : Char} (inline : isInlineBlank c = true) : isBlank c = true :=
  (Bool.and_eq_true_iff.mp inline).1

theorem isTerminator_of_isInlineBlank {c : Char} (inline : isInlineBlank c = true) :
    isTerminator c = false :=
  Bool.not_eq_true' _ ▸ (Bool.and_eq_true_iff.mp inline).2

/-- Where a blank stands, the blanks from there on are one token. -/
theorem startMatch_of_isBlank (comments : Bool) {c : Char} {rest : List Char}
    (blank : isBlank c = true) :
    startMatch comments (c :: rest) =
      { tag := .whitespace, size := ((c :: rest).takeWhile isBlank).length } := by
  have silent : Silent (c :: rest) := silent_of_isBlank blank
  have positive : 0 < ((c :: rest).takeWhile isBlank).length := by
    rw [List.takeWhile_cons_of_pos blank]
    exact Nat.succ_pos _
  simp only [startMatch, startRules, List.findSome?_cons, commentRule_of_silent silent,
    openerRule_of_silent silent, numeralRule, numeral?_of_silent silent, nameRule,
    nameSize?_of_silent silent, bracketRule_of_silent silent, blankRule, if_pos positive,
    Option.map_none, Option.getD_some]

section

variable {b d : Char} {before behind other : List Char}

theorem openerAt_append_blank (unread : before ≠ []) (first : isInlineBlank b = true)
    (second : isInlineBlank d = true) (size : Nat) :
    openerAt size (before ++ d :: other) = openerAt size (before ++ b :: behind) := by
  match before, unread with
  | [q], _ =>
    simp only [List.cons_append, List.nil_append, openerAt, isTerminator_of_isInlineBlank first,
      isTerminator_of_isInlineBlank second]
  | q :: c :: rest, _ => rfl

theorem openerRule_append_blank (unread : before ≠ []) (first : isInlineBlank b = true)
    (second : isInlineBlank d = true) :
    openerRule (before ++ d :: other) = openerRule (before ++ b :: behind) := by
  obtain ⟨c, rest, rfl⟩ := List.exists_cons_of_ne_nil unread
  have bare : openerAt 1 (c :: rest ++ d :: other) = openerAt 1 (c :: rest ++ b :: behind) :=
    openerAt_append_blank unread first second 1
  have prefixed : openerAt 2 (rest ++ d :: other) = openerAt 2 (rest ++ b :: behind) := by
    by_cases alone : rest = []
    · subst alone
      rw [List.nil_append, List.nil_append,
        openerAt_of_silent (silent_of_isBlank (isBlank_of_isInlineBlank first)),
        openerAt_of_silent (silent_of_isBlank (isBlank_of_isInlineBlank second))]
    · exact openerAt_append_blank alone first second 2
  rw [List.cons_append, List.cons_append] at bare ⊢
  rw [openerRule, openerRule, bare, prefixed]

theorem takeWhile_append_blank (blank : isBlank b = true)
    (within : ((before ++ b :: behind).takeWhile isBlank).length ≤ before.length) :
    (before ++ d :: other).takeWhile isBlank = (before ++ b :: behind).takeWhile isBlank := by
  rw [List.takeWhile_append] at within ⊢
  rw [List.takeWhile_append]
  by_cases whole : (before.takeWhile isBlank).length = before.length
  · rw [if_pos whole, List.takeWhile_cons_of_pos blank, List.length_append, List.length_cons]
      at within
    omega
  · rw [if_neg whole, if_neg whole]

/-- A comment would not have stopped before the blank. -/
theorem commentRule_append_blank {comments : Bool} (unread : before ≠ [])
    (clear : (before ++ b :: behind).any isTerminator = false)
    (within : (startMatch comments (before ++ b :: behind)).size ≤ before.length) :
    commentRule comments (before ++ d :: other) = commentRule comments (before ++ b :: behind) := by
  have none : commentRule comments (before ++ b :: behind) = none := by
    cases known : commentRule comments (before ++ b :: behind) with
    | none => rfl
    | some found =>
      obtain ⟨after, -, -, -, same⟩ := exists_comment known
      rw [startMatch_eq_getD, known, Option.getD_some, same] at within
      have tooLong : (before ++ b :: behind).length ≤ before.length := within
      rw [List.length_append, List.length_cons] at tooLong
      omega
  obtain ⟨c, rest, rfl⟩ := List.exists_cons_of_ne_nil unread
  have later : (rest ++ b :: behind).any isTerminator = false := by
    rw [List.cons_append, List.any_cons, Bool.or_eq_false_iff] at clear
    exact clear.2
  have noHash : (comments && c == '#') = false := by
    rw [List.cons_append, commentRule, later] at none
    simpa using none
  rw [none, List.cons_append, commentRule, noHash, Bool.false_and, if_neg Bool.false_ne_true]

theorem startMatch_append_blank {comments : Bool} (unread : before ≠ [])
    (first : isInlineBlank b = true) (second : isInlineBlank d = true)
    (clear : (before ++ b :: behind).any isTerminator = false)
    (within : (startMatch comments (before ++ b :: behind)).size ≤ before.length) :
    startMatch comments (before ++ d :: other) = startMatch comments (before ++ b :: behind) := by
  have blank := isBlank_of_isInlineBlank first
  have agree : Agree (before ++ b :: behind) (before ++ d :: other) :=
    agree_append (silent_of_isBlank blank) (silent_of_isBlank (isBlank_of_isInlineBlank second)) _
  have blanks : ((before ++ b :: behind).takeWhile isBlank).length ≤ before.length := by
    obtain ⟨c, rest, rfl⟩ := List.exists_cons_of_ne_nil unread
    by_cases starts : isBlank c = true
    · rw [List.cons_append, startMatch_of_isBlank comments starts] at within
      exact within
    · rw [List.cons_append, List.takeWhile_cons_of_neg starts]
      exact Nat.zero_le _
  have each : ∀ rule ∈ startRules comments,
      rule (before ++ d :: other) = (rule (before ++ b :: behind)).map id := by
    simp only [startRules, List.forall_mem_cons, Option.map_id_fun, id_eq]
    refine ⟨commentRule_append_blank unread clear within,
      openerRule_append_blank unread first second, ?_, ?_, agree.bracketRule_eq, ?_, List.forall_mem_nil _⟩
    · rw [numeralRule, numeralRule, agree.numeral?_eq]
    · rw [nameRule, nameRule, agree.nameSize?_eq]
    · rw [blankRule, blankRule, takeWhile_append_blank blank blanks]
  rw [startMatch, startMatch, findSome?_rules_eq_map each, Option.map_id_fun, id_eq]

/-- Inside a literal a blank is content. -/
theorem isContent_of_silent {c : Char} {rest : List Char} (silent : Silent (c :: rest))
    (quote : Quote) : isContent quote (c :: rest) = true := by
  have noQuote : c ≠ quote.char := by
    intro same
    have known := Quote.ofChar?_eq_some.mpr same
    rw [ofChar?_of_silent silent] at known
    cases known
  have noBackslash : isContinuation (c :: rest) = false := by
    cases rest with
    | nil => exact beq_false_of_ne (silent.ne (by decide))
    | cons _ _ => rfl
  simp [isContent, noQuote, noBackslash, escapeSize?_of_silent silent]

theorem isContinuation_append_blank (unread : before ≠ []) :
    isContinuation (before ++ b :: behind) = false := by
  match before, unread with
  | [_], _ => rfl
  | _ :: _ :: _, _ => rfl

theorem contentSize_append_blank (quote : Quote) (first : isBlank b = true)
    (second : isBlank d = true)
    (within : contentSize quote (before ++ b :: behind) ≤ before.length) :
    contentSize quote (before ++ d :: other) = contentSize quote (before ++ b :: behind) := by
  induction before with
  | nil =>
    rw [List.nil_append, contentSize, if_pos (isContent_of_silent (silent_of_isBlank first) quote)]
      at within
    exact absurd within (Nat.not_succ_le_zero _)
  | cons c rest ih =>
    have agree : Agree (c :: rest ++ b :: behind) (c :: rest ++ d :: other) :=
      agree_append (silent_of_isBlank first) (silent_of_isBlank second) _
    have content_eq : isContent quote (c :: rest ++ d :: other) =
        isContent quote (c :: rest ++ b :: behind) := by
      have escape_eq := agree.escapeSize?_eq
      have goesOn : isContinuation (c :: rest ++ b :: behind) = false :=
        isContinuation_append_blank (List.cons_ne_nil c rest)
      have also : isContinuation (c :: rest ++ d :: other) = false :=
        isContinuation_append_blank (List.cons_ne_nil c rest)
      rw [List.cons_append, List.cons_append] at *
      rw [isContent, isContent, escape_eq, goesOn, also]
    rw [List.cons_append, List.cons_append] at content_eq
    rw [List.cons_append, contentSize] at within
    rw [List.cons_append, List.cons_append, contentSize, contentSize, content_eq]
    split
    next content =>
      rw [if_pos content, List.length_cons] at within
      rw [ih (Nat.le_of_succ_le_succ within)]
    next => rfl

theorem stringMatch_append_blank {quote : Quote} (unread : before ≠ []) (first : isBlank b = true)
    (second : isBlank d = true)
    (within : (stringMatch quote (before ++ b :: behind)).size ≤ before.length) :
    stringMatch quote (before ++ d :: other) = stringMatch quote (before ++ b :: behind) := by
  have agree : Agree (before ++ b :: behind) (before ++ d :: other) :=
    agree_append (silent_of_isBlank first) (silent_of_isBlank second) _
  have escape_eq : escapeRule quote (before ++ d :: other) =
      escapeRule quote (before ++ b :: behind) := by
    rw [escapeRule, escapeRule, agree.escapeSize?_eq]
  have continuation_eq : continuationRule quote (before ++ d :: other) =
      continuationRule quote (before ++ b :: behind) := by
    rw [continuationRule, continuationRule, isContinuation_append_blank unread,
      isContinuation_append_blank unread]
  have closer_eq : closerRule quote (before ++ d :: other) =
      closerRule quote (before ++ b :: behind) := by
    obtain ⟨c, rest, rfl⟩ := List.exists_cons_of_ne_nil unread
    rfl
  have tried_eq : (stringRules quote).findSome? (fun rule => rule (before ++ d :: other)) =
      (stringRules quote).findSome? fun rule => rule (before ++ b :: behind) := by
    simp only [stringRules, List.findSome?_cons, List.findSome?_nil, escape_eq, continuation_eq,
      closer_eq]
  rw [stringMatch] at within ⊢
  rw [stringMatch, tried_eq]
  cases known : (stringRules quote).findSome? fun rule => rule (before ++ b :: behind) with
  | some found => rfl
  | none =>
    rw [known] at within
    rw [Option.getD_none, Option.getD_none, contentSize_append_blank quote first second within]

/-- A step that stops before a blank does not see which blank it is, nor what stands behind it. -/
theorem matchAt_append_blank {comments : Bool} {state : State} (unread : before ≠ [])
    (first : isInlineBlank b = true) (second : isInlineBlank d = true)
    (clear : (before ++ b :: behind).any isTerminator = false)
    (within : (Scanner.matchAt comments state (before ++ b :: behind)).size ≤ before.length) :
    Scanner.matchAt comments state (before ++ d :: other) =
      Scanner.matchAt comments state (before ++ b :: behind) := by
  cases state with
  | start => exact startMatch_append_blank unread first second clear within
  | string quote =>
    exact stringMatch_append_blank unread (isBlank_of_isInlineBlank first)
      (isBlank_of_isInlineBlank second) within

end

namespace Scanner

/-- Any lexeme of a line, with the scanner that stands before it and what comes behind it. -/
theorem exists_middle {scanner : Scanner} {before after : List Lexeme} {lexeme : Lexeme}
    (split : scanner.drain.lexemes = before ++ lexeme :: after) :
    ∃ middle, scanner.Emits before middle ∧ middle.rest ≠ [] ∧ middle.next.1 = lexeme ∧
      middle.next.2.drain = ⟨after, scanner.drain.endState⟩ := by
  have inside : before.length < scanner.drain.lexemes.length := by
    rw [split, List.length_append, List.length_cons]
    omega
  have run := emits_pass (Nat.le_of_lt inside)
  have unread := rest_pass_ne_nil inside
  have later := drain_pass (Nat.le_of_lt inside)
  rw [split, List.take_left] at run
  rw [split, List.drop_left, drain_of_unread unread, ScannedLine.mk.injEq, List.cons.injEq] at later
  obtain ⟨⟨first, others⟩, endState⟩ := later
  refine ⟨scanner.pass before.length, run, unread, first, ?_⟩
  rw [← others, ← endState]

variable {b d : Char} {behind other : List Char}

/-- A step that leaves a blank unread is the same step before any other blank. -/
theorem next_respaced {scanner : Scanner} {ahead : List Char} (unread : scanner.rest ≠ [])
    (first : isInlineBlank b = true) (second : isInlineBlank d = true)
    (clear : scanner.rest.any isTerminator = false)
    (stops : scanner.next.2.rest = ahead ++ b :: behind) :
    next { scanner with rest := scanner.next.1.text ++ (ahead ++ d :: other) } =
      (scanner.next.1, { scanner.next.2 with rest := ahead ++ d :: other }) := by
  let found := matchAt scanner.comments scanner.state scanner.rest
  let text := scanner.next.1.text
  let changed : Scanner := { scanner with rest := text ++ (ahead ++ d :: other) }
  have unread' : changed.rest ≠ [] :=
    List.append_ne_nil_of_left_ne_nil (text_next_ne_nil unread) _
  have whole : text ++ ahead ++ b :: behind = scanner.rest := by
    rw [List.append_assoc, ← stops]
    exact text_next_append_rest scanner
  have text_eq : text = scanner.rest.take found.size := text_next unread
  have size_eq : found.size = text.length := by
    rw [text_eq, List.length_take, Nat.min_eq_left (fits_matchAt _ _ unread).2]
  have claimed : matchAt changed.comments changed.state changed.rest = found := by
    have stopsBefore : found.size ≤ (text ++ ahead).length := by
      rw [size_eq, List.length_append]
      exact Nat.le_add_right _ _
    show matchAt scanner.comments scanner.state (text ++ (ahead ++ d :: other)) =
      matchAt scanner.comments scanner.state scanner.rest
    rw [← List.append_assoc, ← whole]
    rw [← whole] at clear
    apply matchAt_append_blank _ first second clear
    · rw [whole]
      exact stopsBefore
    · exact List.append_ne_nil_of_left_ne_nil (text_next_ne_nil unread) _
  have step : scanner.next = _ := next_of_matchAt unread rfl
  calc
    changed.next = _ := next_of_matchAt unread' claimed
    _ = (⟨found.tag, text⟩, { scanner with
          state := found.state
          rest := ahead ++ d :: other
          continued := scanner.continued || found.tag == .stringContinuation }) := by
      rw [size_eq, List.take_left, List.drop_left]
    _ = (scanner.next.1, { scanner.next.2 with rest := ahead ++ d :: other }) := by
      rw [step, text_eq]

/-- A run that stops before a blank goes the same way before any other. -/
theorem Emits.respaced {scanner stop : Scanner} {lexemes : List Lexeme}
    (run : scanner.Emits lexemes stop) (first : isInlineBlank b = true)
    (second : isInlineBlank d = true) (stops : stop.rest = b :: behind)
    (clear : scanner.rest.any isTerminator = false) :
    Emits { scanner with rest := Lexeme.texts lexemes ++ d :: other } lexemes
      { stop with rest := d :: other } := by
  induction run with
  | done => exact .done _
  | @step scanner stop lexemes unread later ih =>
    have kept : scanner.next.2.rest = Lexeme.texts lexemes ++ b :: behind := by
      rw [← stops]
      exact later.texts_append_rest.symm
    have clearBehind : scanner.next.2.rest.any isTerminator = false := by
      rw [← text_next_append_rest scanner, List.any_append, Bool.or_eq_false_iff] at clear
      exact clear.2
    have step : next { scanner with
          rest := scanner.next.1.text ++ (Lexeme.texts lexemes ++ d :: other) } =
        (scanner.next.1, { scanner.next.2 with rest := Lexeme.texts lexemes ++ d :: other }) :=
      next_respaced unread first second clear kept
    let changed : Scanner := { scanner with
      rest := scanner.next.1.text ++ (Lexeme.texts lexemes ++ d :: other) }
    have unread' : changed.rest ≠ [] :=
      List.append_ne_nil_of_left_ne_nil (text_next_ne_nil unread) _
    have run : changed.Emits (changed.next.1 :: lexemes) { stop with rest := d :: other } := by
      apply Emits.step unread'
      rw [step]
      exact ih stops clearBehind
    rw [step] at run
    rw [Lexeme.texts, List.flatMap_cons, List.append_assoc]
    exact run

/-- Where white space is emitted, the scanner is between tokens and takes all blanks there are. -/
theorem exists_blanks {scanner : Scanner} (unread : scanner.rest ≠ [])
    (white : scanner.next.1.tag = .whitespace) :
    scanner.state = .start ∧ ∃ b behind tail, scanner.rest = b :: behind ∧ isBlank b = true ∧
      scanner.next.2 = { scanner with rest := tail } ∧ tail.takeWhile isBlank = [] := by
  rw [tag_next unread] at white
  obtain ⟨outside, claimed, starts⟩ : scanner.state = .start ∧
      matchAt scanner.comments scanner.state scanner.rest =
        { tag := .whitespace, size := (scanner.rest.takeWhile isBlank).length } ∧
      scanner.rest.head?.any isBlank = true := by
    have step := maximalStep unread (by rw [white]; rfl)
    generalize matchAt scanner.comments scanner.state scanner.rest = found at step white ⊢
    generalize scanner.state = state at step ⊢
    cases step with
    | name => cases white
    | content => cases white
    | blanks positive => exact ⟨rfl, rfl, runLength_pos.mp positive⟩
  obtain ⟨b, first, blank⟩ := (Option.any_eq_true _ _).mp starts
  refine ⟨outside, b, scanner.rest.tail, _, List.eq_cons_of_mem_head? first, blank, ?_,
    takeWhile_drop_takeWhile isBlank scanner.rest⟩
  rw [next_of_matchAt unread claimed, outside]
  exact congrArg _ (Bool.or_false _)

/-- A step over one token changes nothing of the scanner but what is left of the line. -/
theorem next_of_token {scanner : Scanner} {tag : Tag} {text tail : List Char}
    (outside : scanner.state = .start) (starts : scanner.rest = text ++ tail) (nonempty : text ≠ [])
    (claimed : startMatch scanner.comments (text ++ tail) = { tag, size := text.length })
    (other : tag ≠ .stringContinuation) :
    scanner.next = (⟨tag, text⟩, { scanner with rest := tail }) := by
  have unread : scanner.rest ≠ [] := starts ▸ List.append_ne_nil_of_left_ne_nil nonempty tail
  rw [← starts] at claimed
  have found : matchAt scanner.comments scanner.state scanner.rest =
      { tag, size := text.length } := by
    rw [outside]
    exact claimed
  rw [next_of_matchAt unread found, starts, List.take_left, List.drop_left, outside,
    beq_false_of_ne other, Bool.or_false]

theorem next_of_blanks {scanner : Scanner} {run tail : List Char} (outside : scanner.state = .start)
    (starts : scanner.rest = run ++ tail) (nonempty : run ≠ [])
    (blanks : ∀ c ∈ run, isBlank c = true) (behind : tail.takeWhile isBlank = []) :
    scanner.next = (⟨.whitespace, run⟩, { scanner with rest := tail }) := by
  refine next_of_token outside starts nonempty ?_ Tag.noConfusion
  have whole : (run ++ tail).takeWhile isBlank = run := by
    rw [List.takeWhile_append_of_pos blanks, behind, List.append_nil]
  obtain ⟨c, later, rfl⟩ := List.exists_cons_of_ne_nil nonempty
  rw [List.cons_append, startMatch_of_isBlank _ (blanks c List.mem_cons_self), ← List.cons_append,
    whole]

end Scanner

/-- White space of a line may be replaced by other white space that leaves the line in one piece:
all other lexemes stay as they are, the new run is one lexeme, and the line ends in the same
state. -/
theorem scanLine_respace (comments : Bool) (entry : State) (line : String)
    (oneLine : line.toList.any isTerminator = false) {before after : List Lexeme} {blank : Lexeme}
    (split : (scanLine comments entry line).lexemes = before ++ blank :: after)
    (white : blank.tag = .whitespace) {run : List Char} (nonempty : run ≠ [])
    (blanks : run.all isInlineBlank = true) :
    line.toList = Lexeme.texts before ++ blank.text ++ Lexeme.texts after ∧
      scanLine comments entry (String.ofList (Lexeme.texts before ++ run ++ Lexeme.texts after)) =
        ⟨before ++ ⟨.whitespace, run⟩ :: after, (scanLine comments entry line).endState⟩ := by
  let start : Scanner := { comments, state := entry, rest := line.toList }
  have split : start.drain.lexemes = before ++ blank :: after := split
  have pieces : line.toList = Lexeme.texts before ++ blank.text ++ Lexeme.texts after := by
    have whole := start.flatMap_text_drain
    rw [split, List.flatMap_append, List.flatMap_cons, ← List.append_assoc] at whole
    exact whole.symm
  refine ⟨pieces, ?_⟩
  obtain ⟨middle, reached, unread, same, later⟩ := Scanner.exists_middle split
  rw [← same] at white
  obtain ⟨outside, b, behind, tail, starts, isBlank_b, step, ends⟩ :=
    Scanner.exists_blanks unread white
  rw [step] at later
  have tail_eq : Lexeme.texts after = tail := by
    have left := Scanner.flatMap_text_drain { middle with rest := tail }
    rw [later] at left
    exact left
  have inline_b : isInlineBlank b = true := by
    have member : b ∈ line.toList := by
      have split : Lexeme.texts before ++ middle.rest = line.toList := reached.texts_append_rest
      rw [← split, starts]
      exact List.mem_append_right _ List.mem_cons_self
    have one := List.any_eq_false.mp oneLine b member
    rw [isInlineBlank, isBlank_b, Bool.eq_false_iff.mpr one]
    rfl
  have members := List.all_eq_true.mp blanks
  obtain ⟨d, others, rfl⟩ := List.exists_cons_of_ne_nil nonempty
  let changed : Scanner := { middle with rest := d :: others ++ tail }
  have reachedToo : Scanner.Emits
      { start with rest := Lexeme.texts before ++ (d :: others ++ tail) } before changed :=
    reached.respaced inline_b (members d List.mem_cons_self) starts oneLine
  have stepToo : changed.next = (⟨.whitespace, d :: others⟩, { middle with rest := tail }) :=
    Scanner.next_of_blanks outside rfl nonempty
      (fun c member => isBlank_of_isInlineBlank (members c member)) ends
  have unreadToo : changed.rest ≠ [] := List.cons_ne_nil _ _
  rw [scanLine, String.toList_ofList, tail_eq, List.append_assoc]
  calc
    _ = (⟨before ++ changed.drain.lexemes, changed.drain.endState⟩ : ScannedLine) :=
      reachedToo.drain_eq
    _ = _ := by
      rw [Scanner.drain_of_unread unreadToo, stepToo, later]
      rfl

/-- Blanks of other widths keep a point and what looks like its exponent apart just as well. -/
theorem scanLine_respace_behind_point :
    "a\" 3.\u00a0\u3000e5 # i'".toList.any isTerminator = false ∧
      scanLine true (.string .double) "a\" 3.\u00a0\u3000e5 # i'" =
        ⟨[⟨.stringContent, ['a']⟩, ⟨.stringClose, ['"']⟩, ⟨.whitespace, [' ']⟩,
          ⟨.float, ['3', '.']⟩, ⟨.whitespace, ['\u00a0', '\u3000']⟩, ⟨.identifier, ['e', '5']⟩,
          ⟨.whitespace, [' ']⟩, ⟨.comment, ['#', ' ', 'i', '\'']⟩], .start⟩ ∧
      ['\t', '\ufeff', '\t'].all isInlineBlank = true ∧
      scanLine true (.string .double) "a\" 3.\t\ufeff\te5 # i'" =
        ⟨[⟨.stringContent, ['a']⟩, ⟨.stringClose, ['"']⟩, ⟨.whitespace, [' ']⟩,
          ⟨.float, ['3', '.']⟩, ⟨.whitespace, ['\t', '\ufeff', '\t']⟩, ⟨.identifier, ['e', '5']⟩,
          ⟨.whitespace, [' ']⟩, ⟨.comment, ['#', ' ', 'i', '\'']⟩], .start⟩ := by
  have oneLine : "a\" 3.\u00a0\u3000e5 # i'".toList.any isTerminator = false := by
    decide +kernel
  have full : scanLine true (.string .double) "a\" 3.\u00a0\u3000e5 # i'" =
      ⟨[⟨.stringContent, ['a']⟩, ⟨.stringClose, ['"']⟩, ⟨.whitespace, [' ']⟩,
        ⟨.float, ['3', '.']⟩, ⟨.whitespace, ['\u00a0', '\u3000']⟩, ⟨.identifier, ['e', '5']⟩,
        ⟨.whitespace, [' ']⟩, ⟨.comment, ['#', ' ', 'i', '\'']⟩], .start⟩ := by
    decide +kernel
  have blanks : ['\t', '\ufeff', '\t'].all isInlineBlank = true := by decide
  have split : (scanLine true (.string .double) "a\" 3.\u00a0\u3000e5 # i'").lexemes =
      [⟨.stringContent, ['a']⟩, ⟨.stringClose, ['"']⟩, ⟨.whitespace, [' ']⟩,
        ⟨.float, ['3', '.']⟩] ++ ⟨.whitespace, ['\u00a0', '\u3000']⟩ ::
      [⟨.identifier, ['e', '5']⟩, ⟨.whitespace, [' ']⟩, ⟨.comment, ['#', ' ', 'i', '\'']⟩] := by
    rw [full]
    rfl
  have respaced := (scanLine_respace true (.string .double) _ oneLine split rfl
    (List.cons_ne_nil _ _) blanks).2
  rw [full] at respaced
  exact ⟨oneLine, full, blanks, respaced⟩

end QueryHighlight.Scan
