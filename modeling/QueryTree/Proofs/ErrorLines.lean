import Mathlib.Algebra.GroupWithZero.Nat
import QueryTree.CommandLine.Run
import QueryTree.Proofs.Documents
import QueryTree.Proofs.Printable

/-!
# Errors by lines

A value that is not accepted is answered by one message for each reason, and the command writes each
with an end of line behind it.  A message is a line then, unless there are ends of lines in it.  Of
all that messages say only an unknown tag is said as it was found; everything else is printable.

* `linesOf`                 : the lines of a text
* `linesOf_eachEnded`       : when texts with ends of lines behind them are the lines
* `Encloses`                : text around other text
* `Cause.SaidOf.encloses`, `Fault.PointsInto.encloses` : messages about faults
* `toQuery_rejected`        : the reasons for which a value is rejected
* `Rejection.unknownTags`, `Rejection.ends_messages` : the tags that are said as they were found
* `Invocation.run_rejected` : the lines that are written
-/

namespace QueryTree

/-! ## Lines -/

/-- The lines of a text, each of which ends with a character of a class. -/
def linesOf (ends : Char → Bool) (text : String) : List (List Char) :=
  (text.toList.splitOnP ends).dropLast

/-- The number of ends of lines in a text. -/
def endsIn (ends : Char → Bool) (text : String) : Nat :=
  text.toList.countP ends

section Lines

variable {ends : Char → Bool}

theorem endsIn_append (s t : String) : endsIn ends (s ++ t) = endsIn ends s + endsIn ends t := by
  rw [endsIn, String.toList_append, List.countP_append, endsIn, endsIn]

theorem endsIn_eq_zero {text : String} :
    endsIn ends text = 0 ↔ ∀ c ∈ text.toList, ends c = false := by
  simp [endsIn, List.countP_eq_zero]

theorem length_linesOf (text : String) : (linesOf ends text).length = endsIn ends text := by
  have pieces (cs : List Char) : (cs.splitOnP ends).length = cs.countP ends + 1 := by
    induction cs with
    | nil => rfl
    | cons c cs ih =>
      rw [List.splitOnP_cons_eq_if_modifyHead]
      by_cases final : ends c = true
      · simp [final, ih]
      · simp [final, ih]
  rw [linesOf, List.length_dropLast, pieces, endsIn, Nat.add_sub_cancel]

/-- Texts with an end of line behind each. -/
def eachEnded (texts : List String) : String :=
  String.join (texts.map (· ++ "\n"))

theorem eachEnded_cons (text : String) (texts : List String) :
    eachEnded (text :: texts) = text ++ "\n" ++ eachEnded texts := by
  apply String.toList_injective
  simp [eachEnded]

/-- Ends of lines stand behind the texts that they separate, and one behind the last. -/
theorem intercalate_newline {texts : List String} (some : texts ≠ []) :
    "\n".intercalate texts ++ "\n" = eachEnded texts := by
  apply String.toList_injective
  rw [String.toList_append, String.toList_intercalate]
  induction texts with
  | nil => exact absurd rfl some
  | cons text texts ih =>
    rw [eachEnded_cons]
    cases texts with
    | nil => simp [eachEnded]
    | cons next texts =>
      rw [String.toList_append, ← ih (by simp)]
      simp [List.intercalate_cons_cons]

theorem endsIn_eachEnded (newline : ends '\n' = true) (texts : List String) :
    endsIn ends (eachEnded texts) = texts.length + (texts.map (endsIn ends)).sum := by
  have one : endsIn ends "\n" = 1 := by
    rw [endsIn]
    simp [newline]
  induction texts with
  | nil => rfl
  | cons text texts ih =>
    rw [eachEnded_cons, endsIn_append, endsIn_append, ih, one, List.length_cons, List.map_cons,
      List.sum_cons]
    omega

/-- The texts are the lines, if there are no other ends. -/
theorem linesOf_eachEnded (newline : ends '\n' = true) {texts : List String} :
    linesOf ends (eachEnded texts) = texts.map String.toList ↔
      (texts.map (endsIn ends)).sum = 0 := by
  constructor
  · intro same
    have count := congrArg List.length same
    rw [length_linesOf, endsIn_eachEnded newline, List.length_map] at count
    omega
  · intro none
    have pieces : (eachEnded texts).toList.splitOnP ends = texts.map String.toList ++ [[]] := by
      induction texts with
      | nil => rfl
      | cons text texts ih =>
        rw [List.map_cons, List.sum_cons, Nat.add_eq_zero_iff] at none
        obtain ⟨here, later⟩ := none
        have free := endsIn_eq_zero.1 here
        rw [eachEnded_cons, String.append_assoc, String.toList_append, String.toList_append]
        show List.splitOnP ends (text.toList ++ '\n' :: (eachEnded texts).toList) = _
        rw [List.splitOnP_append_cons_of_forall_mem free _ newline, ih later]
        rfl
    rw [linesOf, pieces, List.dropLast_concat]

end Lines

/-! ## Text around a tag -/

/-- A text is another one with printable text around it. -/
def Encloses (text inner : String) : Prop :=
  ∃ front back, Printable front ∧ Printable back ∧ text = front ++ inner ++ back

theorem Printable.encloses {text : String} (printable : Printable text) : Encloses text "" :=
  ⟨text, "", printable, by decide, by simp⟩

theorem Encloses.behind {front text inner : String} (printable : Printable front)
    (around : Encloses text inner) : Encloses (front ++ text) inner := by
  obtain ⟨start, stop, first, last, rfl⟩ := around
  exact ⟨front ++ start, stop, printable.append first, last, by simp [String.append_assoc]⟩

theorem newline_hidden (c : Char) (newline : (c == '\n') = true) : Text.isPrintable c = false := by
  rw [eq_of_beq newline]
  decide

/-- What is not printable ends no line in printable text. -/
theorem Printable.endsIn_eq_zero {ends : Char → Bool}
    (hidden : ∀ c, ends c = true → Text.isPrintable c = false) {text : String}
    (printable : Printable text) : endsIn ends text = 0 := by
  rw [QueryTree.endsIn_eq_zero]
  intro c member
  apply Bool.eq_false_of_not_eq_true
  intro final
  have shown := printable c member
  rw [hidden c final] at shown
  cases shown

theorem Encloses.endsIn_eq {ends : Char → Bool}
    (hidden : ∀ c, ends c = true → Text.isPrintable c = false) {text inner : String}
    (around : Encloses text inner) : endsIn ends text = endsIn ends inner := by
  obtain ⟨front, back, first, last, rfl⟩ := around
  rw [endsIn_append, endsIn_append, first.endsIn_eq_zero hidden, last.endsIn_eq_zero hidden,
    Nat.zero_add, Nat.add_zero]

/-! ## Causes -/

/-- The tag that is said as it was found. -/
def Cause.unknownTag? : Cause → Option String
  | .tagUnknown _ tag _ => some tag
  | _ => none

theorem printable_shownItems (n : Nat) : Printable (shownItems n) := by
  refine (printable_shownNat n).append ?_
  split <;> decide

theorem printable_digitLimitText (count : Nat) : Printable (digitLimitText count) := by
  refine .append (.append ((printable_shownNat digitLimit).between ?_ ?_) ?_) ?_
  · exact .ofChars (by decide)
  · exact .ofChars (by decide)
  · exact printable_shownNat count
  · exact .ofChars (by decide)

/-- Messages about other things than unknown tags are printable. -/
theorem Cause.SaidOf.printable_message {v : Value} {cause : Cause} (said : cause.SaidOf v)
    (json : v.IsJson) (other : cause.unknownTag? = none) : Printable (cause.message v) := by
  have tuple {word : String} (printable : Printable word) (least actual : Nat) :
      Printable (word ++ shownItems least ++ " after validation, not " ++ shownNat actual) :=
    ((printable_shownItems least).between printable (.ofChars (by decide))).append
      (printable_shownNat actual)
  have unreadable {word : String} (printable : Printable word) :
      Printable ("Cannot parse " ++ v.shown ++ word) :=
    json.printable_shown.between (.ofChars (by decide)) printable
  cases cause with
  | tagUnknown key tag expected => cases other
  | fieldMissing | wrongTag expected => exact absurd said id
  | tagMissing key =>
    have keys : ∀ key ∈ tagKeys, Printable key := by decide
    exact (keys key said).between (.ofChars (by decide)) (by decide)
  | notInstance m =>
    have names : ∀ m ∈ Model.all, Printable m.name := by decide +kernel
    exact .append (.ofChars (by decide)) (names m m.mem_all)
  | tooShort least actual => exact tuple (.ofChars (by decide)) least actual
  | tooLong most actual => exact tuple (.ofChars (by decide)) most actual
  | unreadableDate => exact unreadable (by decide)
  | unreadableNumber => exact unreadable (by decide)
  | tooManyDigits count => exact .append (.ofChars (by decide)) (printable_digitLimitText count)
  | _ => exact .ofChars (by decide)

/-- The message about an unknown tag has printable text around the tag. -/
theorem Cause.encloses_tag {v : Value} {key tag : String} {expected : List String}
    (said : (Cause.tagUnknown key tag expected).SaidOf v) :
    Encloses ((Cause.tagUnknown key tag expected).message v) tag := by
  obtain ⟨known, names, -⟩ := said
  have keys : ∀ key ∈ tagKeys, Printable key := by decide
  have listed : Printable (", ".intercalate (expected.map fun t => "'" ++ t ++ "'")) := by
    refine Printable.intercalate (by decide) (List.forall_mem_map.2 fun name member => ?_)
    exact (printable_tagName (names name member)).between (by decide) (by decide)
  refine ⟨"Input tag '", "' found using '" ++ key ++
    "' does not match any of the expected tags: " ++
    ", ".intercalate (expected.map fun t => "'" ++ t ++ "'"), ?_, ?_, ?_⟩
  · exact .ofChars (by decide)
  · exact .append ((keys key known).between (.ofChars (by decide)) (.ofChars (by decide))) listed
  · show "Input tag '" ++ tag ++ "' found using '" ++ key ++
      "' does not match any of the expected tags: " ++ _ = _
    simp only [String.append_assoc]

theorem Cause.SaidOf.encloses {v : Value} {cause : Cause} (said : cause.SaidOf v)
    (json : v.IsJson) : Encloses (cause.message v) (cause.unknownTag?.getD "") := by
  cases tag : cause.unknownTag? with
  | none => exact (said.printable_message json tag).encloses
  | some tag =>
    cases cause with
    | tagUnknown key tag expected =>
      cases tag
      exact Cause.encloses_tag said
    | _ => cases tag

/-! ## Faults of documents -/

/-- Only text is said as it was found; everything else is shown. -/
theorem Value.IsJson.plain_cases {v : Value} (json : v.IsJson) :
    v = .str v.plain ∨ Printable v.plain := by
  have shown := json.printable_shown
  cases json with
  | str s => exact .inl rfl
  | _ => exact .inr shown

section Faults

variable {v : Value} {f : Fault}

theorem Fault.PointsInto.encloses (points : f.PointsInto v) (json : v.IsJson) :
    Encloses f.text (f.cause.unknownTag?.getD "") := by
  cases points with
  | @place path cause w known said reached =>
    have place := (printable_pathText known).append (by decide : Printable ": ")
    have message := said.encloses (json.of_walk reached)
    show Encloses (pathText path ++ ": " ++ cause.message w) (cause.unknownTag?.getD "")
    exact message.behind place
  | @missing path key w known name _ =>
    have steps := Step.known_snoc known name
    have place := (printable_pathText steps).append (by decide : Printable ": ")
    have text : Printable (pathText (path ++ [.field key]) ++ ": " ++ "Field required") :=
      place.append (.ofChars (by decide))
    exact text.encloses

/-- An unknown tag that is not printable is a text in the document, under the key of a tag. -/
theorem Fault.PointsInto.tag_found (points : f.PointsInto v) (json : v.IsJson) {tag : String}
    (unknown : f.cause.unknownTag? = some tag) (plain : ¬ Printable tag) :
    ∃ path w, v.walk path = some w ∧ ∃ key ∈ tagKeys, w.attribute key = .found (.str tag) := by
  cases points with
  | missing _ _ _ => cases unknown
  | @place path cause w _ said reached =>
    cases cause with
    | tagUnknown key name expected =>
      cases unknown
      obtain ⟨known, -, u, found, rfl⟩ := said
      have text := ((json.of_walk reached).of_attribute found).plain_cases.resolve_right plain
      rw [text] at found
      exact ⟨path, w, reached, key, known, found⟩
    | _ => cases unknown

end Faults

/-! ## Rejections -/

namespace Rejection

/-- The tags that the messages say as they were found. -/
def unknownTags : Rejection → List String
  | .malformed f fs => (f :: fs).filterMap fun f => f.cause.unknownTag?
  | .tooDeep _ | .misplaced _ _ | .badGeometry _ => []

/-- What a value is rejected for when its query is wanted: for its nesting, its faults or the parts
    of a tree that is misplaced. -/
inductive Answers (v : Value) : Rejection → Prop where
  | tooDeep {limit : Int} : Answers v (.tooDeep limit)
  | malformed {f : Fault} {fs : List Fault} :
      Node.decode v = .faulty f fs → Answers v (.malformed f fs)
  | misplaced {n : Node} {i : Issue} {is : List Issue} :
      n.elementIssues = i :: is → Answers v (.misplaced i is)

end Rejection

theorem validateElement_rejected {limit : Int} {v : Value} {r : Rejection}
    (rejected : validateElement limit v = .ok (.rejected r)) : r.Answers v := by
  unfold validateElement checkValue at rejected
  split at rejected
  · cases rejected
  · cases rejected
    exact .tooDeep
  · cases rejected
  · cases read : Node.decode v with
    | done n =>
      rw [read] at rejected
      simp only [Decoded.verdict, bind, Except.bind, Role.verdict, Role.issues] at rejected
      split at rejected
      · cases rejected
      · next i is issues =>
        cases rejected
        exact .misplaced issues
    | faulty f fs =>
      rw [read, Decoded.verdict] at rejected
      split at rejected
      · cases rejected
        exact .malformed read
      · cases rejected
    | outsideCalendar =>
      rw [read] at rejected
      cases rejected

/-- The query of an accepted tree is written or fails, so the geometry is never the reason. -/
theorem toQuery_rejected {limit : Int} {v : Value} {r : Rejection}
    (rejected : toQuery limit v = .ok (.rejected r)) : r.Answers v := by
  cases checked : validateElement limit v with
  | error failure =>
    rw [toQuery, checked] at rejected
    cases rejected
  | ok verdict =>
    cases verdict with
    | rejected reasons =>
      rw [toQuery, checked] at rejected
      cases rejected
      exact validateElement_rejected checked
    | accepted n =>
      rw [toQuery_eq checked, (formed_of_accepted checked).render_eq] at rejected
      cases writable : n.writable with
      | true =>
        rw [writable] at rejected
        cases rejected
      | false =>
        rw [writable] at rejected
        cases rejected

section Ends

variable {ends : Char → Bool} (hidden : ∀ c, ends c = true → Text.isPrintable c = false)

include hidden

theorem ends_faults {v : Value} (json : v.IsJson) {fs : List Fault}
    (points : ∀ f ∈ fs, f.PointsInto v) :
    (((fs.map Fault.toMessage).map Message.text).map (endsIn ends)).sum =
      ((fs.filterMap fun f => f.cause.unknownTag?).map (endsIn ends)).sum := by
  induction fs with
  | nil => rfl
  | cons f fs ih =>
    obtain ⟨here, rest⟩ := List.forall_mem_cons.1 points
    have around := (here.encloses json).endsIn_eq hidden
    rw [List.map_cons, List.map_cons, List.map_cons, List.sum_cons, ih rest, Fault.text_toMessage,
      around, List.filterMap_cons]
    cases f.cause.unknownTag? with
    | none => exact Nat.zero_add _
    | some tag => rfl

/-- The messages hold as many ends of lines as the tags do that they say as they were found. -/
theorem Rejection.ends_messages {v : Value} {r : Rejection} (answers : r.Answers v)
    (json : v.IsJson) :
    ((r.messages.map Message.text).map (endsIn ends)).sum =
      (r.unknownTags.map (endsIn ends)).sum := by
  cases answers with
  | @tooDeep limit =>
    have depth : Printable (depthText limit) :=
      (printable_shownInt limit).between (.ofChars (by decide)) (.ofChars (by decide))
    have text : Printable (pathText [] ++ ": " ++ depthText limit) := .append (by decide) depth
    show endsIn ends (pathText [] ++ ": " ++ depthText limit) + 0 = 0
    rw [text.endsIn_eq_zero hidden]
  | @malformed f fs read =>
    exact ends_faults hidden json (Node.points_of_faulty read)
  | @misplaced n i is issues =>
    rw [messages, List.map_map, List.map_map]
    apply List.sum_eq_zero
    refine List.forall_mem_map.2 fun issue member => ?_
    rw [← issues] at member
    have text := Issue.printable_text (Node.known_of_elementIssue member)
    show endsIn ends issue.toMessage.text = 0
    exact text.endsIn_eq_zero hidden

end Ends

/-! ## The command -/

/-- A value that can be written and has faults is rejected for them. -/
theorem toQuery_malformed {limit : Int} {v : Value} {f : Fault} {fs : List Fault}
    (passed : guardDepth limit v = .ok ()) (faulty : Node.decode v = .faulty f fs)
    (writable : v.writable = true) : toQuery limit v = .ok (.rejected (.malformed f fs)) := by
  have points := Node.points_of_faulty faulty
  have verdict : (Decoded.faulty f fs : Decoded Node).verdict = .ok (.rejected (.malformed f fs)) :=
    Decoded.verdict_shown fun g member => (points g member).writable writable
  rw [toQuery, validateElement, checkValue, passed, faulty]
  dsimp only
  rw [verdict]
  rfl

namespace CommandLine

/-- A journal is configured from the name of a severity. -/
theorem exists_journal {level : String} (named : level ∈ severities.map Prod.fst) :
    ∃ journal, Journal.configure (.str level) = .ok journal := by
  have known : ∀ name ∈ severities.map Prod.fst, (severities.lookup name).isSome = true := by decide
  obtain ⟨n, found⟩ := Option.isSome_iff_exists.1 (known level named)
  refine ⟨⟨n, true⟩, ?_⟩
  simp [Journal.configure, severityOf, found, Except.map]

section Run

variable {settings : Settings} {i : Invocation} {source : Source} {depth : Option Int}
  {content : String} {v : Value} {r : Rejection}

theorem run_of_rejected (level : i.verbose = true ∨ settings.logLevel ∈ severities.map Prod.fst)
    (command : i.command = .render source depth)
    (read : Json.read (Text.unifyNewlines content.toList) = .ok v)
    (rejected : toQuery (depth.getD settings.maxDepth) v = .ok (.rejected r)) :
    (i.run settings (.text content)).ending = .ok 1 ∧
      (i.run settings (.text content)).output = eachEnded (r.messages.map Message.text) := by
  have named : (if i.verbose then "DEBUG" else settings.logLevel) ∈ severities.map Prod.fst := by
    split
    · decide
    · next quiet => exact level.resolve_left quiet
  obtain ⟨journal, configured⟩ := exists_journal named
  have some : r.messages.map Message.text ≠ [] := by simpa using r.messages_ne_nil
  have run : i.command.run settings (.text content) = Outcome.rejected r.entry r := by
    simp only [command, Command.run, withDocument, read, renderValue, rejected]
  rw [Invocation.run]
  simp only [configured, run]
  exact ⟨rfl, intercalate_newline some⟩

/-- A value that is rejected is answered by its messages with an end of line behind each, and by
    the exit code of errors.  However lines end, by an end of line or by any other characters that
    are not printable: the messages are the lines if and only if no unknown tag holds an end, and
    there is one line more for each end in such a tag.  Unknown tags that are not printable are
    texts that the document has under the key of a tag. -/
theorem Invocation.run_rejected
    (level : i.verbose = true ∨ settings.logLevel ∈ severities.map Prod.fst)
    (command : i.command = .render source depth)
    (read : Json.read (Text.unifyNewlines content.toList) = .ok v)
    (rejected : toQuery (depth.getD settings.maxDepth) v = .ok (.rejected r)) :
    let outcome := i.run settings (.text content)
    outcome.ending = .ok 1 ∧
      outcome.output =
        String.join (r.messages.map fun m => pathText m.path ++ ": " ++ m.message ++ "\n") ∧
      (∀ ends : Char → Bool, ends '\n' = true → (∀ c, ends c = true → Text.isPrintable c = false) →
        (linesOf ends outcome.output = r.messages.map (fun m => m.text.toList) ↔
          ∀ tag ∈ r.unknownTags, ∀ c ∈ tag.toList, ends c = false) ∧
        (linesOf ends outcome.output).length =
          r.messages.length + (r.unknownTags.map (endsIn ends)).sum) ∧
      ∀ tag ∈ r.unknownTags, ¬ Printable tag → ∃ path w, v.walk path = some w ∧
        ∃ key ∈ tagKeys, w.attribute key = .found (.str tag) := by
  have json := Json.isJson_read read
  have answers := toQuery_rejected rejected
  obtain ⟨ending, output⟩ := run_of_rejected level command read rejected
  refine ⟨ending, ?_, ?_, ?_⟩
  · rw [output, eachEnded, List.map_map]
    rfl
  · intro ends newline hidden
    have sums := Rejection.ends_messages hidden answers json
    rw [output, length_linesOf, endsIn_eachEnded newline, sums, List.length_map]
    have lines : linesOf ends (eachEnded (r.messages.map Message.text)) = _ ↔ _ :=
      linesOf_eachEnded newline
    rw [List.map_map, sums] at lines
    refine ⟨lines.trans ?_, rfl⟩
    rw [List.sum_eq_zero_iff_forall_eq_nat, List.forall_mem_map]
    exact forall₂_congr fun tag _ => endsIn_eq_zero
  · intro tag unknown plain
    cases answers with
    | tooDeep | misplaced _ => cases unknown
    | @malformed f fs faulty =>
      obtain ⟨g, member, said⟩ := List.mem_filterMap.1 unknown
      exact (Node.points_of_faulty faulty g member).tag_found json said plain

end Run

theorem initial_logLevel : Settings.initial.logLevel ∈ severities.map Prod.fst := by
  decide

/-- The command without options, on the standard input. -/
def renderInput : Invocation := ⟨false, .render .input none⟩

/-- A date that cannot be read and an unknown tag, both with an end of line. -/
def brokenTexts : String :=
  "\x7b\"type\": \"and\", \"operands\": [" ++
    "\x7b\"type\": \"literal\", \"kind\": \"date\", \"value\": \"so\\non\"\x7d, " ++
    "\x7b\"type\": \"a\\nb\"\x7d]\x7d"

def brokenValue : Value :=
  .mapping [
    ("type", .str "and"),
    ("operands", .list [
      .mapping [("type", .str "literal"), ("kind", .str "date"), ("value", .str "so\non")],
      .mapping [("type", .str "a\nb")]])]

/-- The date stays on its line, the tag does not. -/
theorem Invocation.run_rejected_brokenTexts :
    Json.read (Text.unifyNewlines brokenTexts.toList) = .ok brokenValue ∧
      ∃ r, toQuery 256 brokenValue = .ok (.rejected r) ∧ r.messages.length = 2 ∧
        r.unknownTags = ["a\nb"] ∧
        (linesOf (· == '\n') (renderInput.run .initial (.text brokenTexts)).output).length = 3 := by
  have read : Json.read (Text.unifyNewlines brokenTexts.toList) = .ok brokenValue := by
    rfl
  have shallow : (brokenValue.nest : Int) ≤ max 256 0 := by decide
  have passed := (guardDepth_eq (Json.isJson_read read).complete).trans (if_pos shallow)
  have rejected := toQuery_malformed passed rfl rfl
  have command : renderInput.command = .render .input none := rfl
  obtain ⟨-, -, lines, -⟩ := run_rejected (.inr initial_logLevel) command read rejected
  exact ⟨read, _, rejected, rfl, rfl, (lines _ rfl newline_hidden).2⟩

/-- An unknown tag with an end of line. -/
def brokenTag : String :=
  "\x7b\"type\": \"a\\nb\"\x7d"

/-- There is one message about it, which is written on two lines. -/
theorem Invocation.run_brokenTag :
    ∃ v r, Json.read (Text.unifyNewlines brokenTag.toList) = .ok v ∧
      toQuery 256 v = .ok (.rejected r) ∧ r.messages.length = 1 ∧
      (renderInput.run .initial (.text brokenTag)).ending = .ok 1 ∧
      (linesOf (· == '\n') (renderInput.run .initial (.text brokenTag)).output).length = 2 := by
  have read : Json.read (Text.unifyNewlines brokenTag.toList) =
      .ok (.mapping [("type", .str "a\nb")]) := by
    rfl
  have json := Json.isJson_read read
  have passed : guardDepth 256 (.mapping [("type", .str "a\nb")]) = .ok () :=
    (guardDepth_eq json.complete).trans (if_pos (by decide))
  have rejected := toQuery_malformed passed rfl rfl
  have command : renderInput.command = .render .input none := rfl
  obtain ⟨ending, output⟩ := run_of_rejected (.inr initial_logLevel) command read rejected
  refine ⟨_, _, read, rejected, rfl, ending, ?_⟩
  have sums := Rejection.ends_messages newline_hidden (toQuery_rejected rejected) json
  rw [output, length_linesOf, endsIn_eachEnded rfl, sums]
  rfl

end CommandLine

end QueryTree
