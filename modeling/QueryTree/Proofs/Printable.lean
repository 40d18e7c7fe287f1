import QueryTree.Proofs.NumberText
import QueryTree.Proofs.Outcomes
import QueryTree.Proofs.Places

/-!
# Printable text

Messages are put together from fixed words, names, numbers and values.  A value is shown as it would
be written in a program, where escapes stand for what is not printable: so what a document holds is
shown by printable text, whatever it is, and does not end the line.

* `Printable`            : text without characters that are not printable
* `Printable.append`, `Printable.intercalate` : text put together
* `printable_shownText`  : quoted text
* `Value.IsJson.printable_shown`  : values of documents
* `Step.Known.printable`, `printable_pathText` : places
* `Node.known_of_elementIssue`, `Misplacement.printable_message` : messages about misplaced parts
-/

namespace QueryTree

/-- All characters of a text are printable. -/
def Printable (s : String) : Prop :=
  ∀ c ∈ s.toList, Text.isPrintable c = true

instance (s : String) : Decidable (Printable s) :=
  decidable_of_iff (s.toList.all Text.isPrintable = true) List.all_eq_true

theorem printable_ofList {cs : List Char} :
    Printable (String.ofList cs) ↔ ∀ c ∈ cs, Text.isPrintable c = true := by
  rw [Printable, String.toList_ofList]

theorem Printable.ofChars {cs : List Char} (all : cs.all Text.isPrintable = true) :
    Printable (String.ofList cs) :=
  printable_ofList.2 (List.all_eq_true.1 all)

theorem Printable.append {s t : String} (first : Printable s) (second : Printable t) :
    Printable (s ++ t) := by
  rw [Printable, String.toList_append]
  exact List.forall_mem_append.2 ⟨first, second⟩

theorem Printable.between {front inner back : String} (inside : Printable inner)
    (first : Printable front) (last : Printable back) : Printable (front ++ inner ++ back) :=
  (first.append inside).append last

theorem Printable.intercalate {between : String} {parts : List String}
    (separator : Printable between) (all : ∀ s ∈ parts, Printable s) :
    Printable (between.intercalate parts) := by
  rw [Printable, String.toList_intercalate]
  induction parts with
  | nil => simp
  | cons s parts ih =>
    obtain ⟨head, tail⟩ := List.forall_mem_cons.1 all
    cases parts with
    | nil =>
      rw [List.map_singleton, List.intercalate_singleton]
      exact head
    | cons t parts =>
      simp only [List.map_cons, List.intercalate_cons_cons, List.forall_mem_append]
      exact ⟨⟨head, separator⟩, by simpa using ih tail⟩

/-! ## Numbers -/

theorem IsNumeralChar.printable {c : Char} (numeral : IsNumeralChar c) :
    Text.isPrintable c = true := by
  rcases numeral with ⟨d, small, rfl⟩ | sign
  · have digits : ∀ d < 10, Text.isPrintable (Text.digitChar d) = true := by decide
    exact digits d small
  · have signs : ['.', 'e', '+', '-'].all Text.isPrintable = true := by decide
    exact List.all_eq_true.1 signs c sign

theorem printable_shownNat (n : Nat) : Printable (shownNat n) :=
  printable_ofList.2 fun _ member =>
    IsNumeralChar.printable (.inl (isAsciiDigit_of_mem_decimal member))

theorem printable_shownInt (n : Int) : Printable (shownInt n) :=
  printable_ofList.2 fun _ member =>
    IsNumeralChar.printable (Number.numeralChar_of_mem_queryText (n := .int n) member)

theorem Float64.printable_shown (x : Float64) : Printable x.shown := by
  cases x with
  | finite x =>
    exact printable_ofList.2 fun _ member => (Layout.numeralChar_of_mem_write member).printable
  | infinite negative => cases negative <;> decide
  | nan => decide

/-! ## Quoted text -/

namespace Text

theorem printable_hex {width n : Nat} {c : Char} (member : c ∈ hex width n) :
    isPrintable c = true := by
  have digits : ∀ d < 16, isPrintable (hexDigit d) = true := by decide
  induction width generalizing n with
  | zero => cases member
  | succ width ih =>
    rcases List.mem_append.1 member with front | last
    · exact ih front
    · obtain rfl := List.mem_singleton.1 last
      exact digits _ (Nat.mod_lt n (by decide))

/-- What stands for a character is printable; it is an escape, if the character is not. -/
theorem printable_shownChar {quote c d : Char} (plain : isPrintable quote = true)
    (member : d ∈ shownChar quote c) : isPrintable d = true := by
  have backslash : isPrintable '\\' = true := by decide
  have escape {letter : Char} (printable : isPrintable letter = true) {ds : List Char}
      (rest : ∀ d ∈ ds, isPrintable d = true) : ∀ d ∈ '\\' :: letter :: ds, isPrintable d = true :=
    List.forall_mem_cons.2 ⟨backslash, List.forall_mem_cons.2 ⟨printable, rest⟩⟩
  unfold shownChar at member
  split at member
  · next marked =>
    have printable : isPrintable c = true := by
      rcases marked with rfl | rfl
      · exact plain
      · exact backslash
    exact escape printable (by simp) d member
  · split at member
    · exact escape (by decide) (by simp) d member
    · split at member
      · exact escape (by decide) (by simp) d member
      · split at member
        · exact escape (by decide) (by simp) d member
        · split at member
          · next printable =>
            obtain rfl := List.mem_singleton.1 member
            exact printable
          · split at member
            · exact escape (by decide) (fun _ => printable_hex) d member
            · split at member
              · exact escape (by decide) (fun _ => printable_hex) d member
              · exact escape (by decide) (fun _ => printable_hex) d member

theorem printable_shownText (cs : List Char) : Printable (String.ofList (shownText cs)) := by
  have quote : isPrintable (quoteFor cs) = true := by
    unfold quoteFor
    split <;> decide
  rw [printable_ofList, shownText]
  refine List.forall_mem_append.2 ⟨List.forall_mem_cons.2 ⟨quote, fun d member => ?_⟩, by simpa⟩
  obtain ⟨c, -, there⟩ := List.mem_flatMap.1 member
  exact printable_shownChar quote there

end Text

/-! ## Values -/

namespace Value

theorem shown_list (vs : List Value) :
    (list vs).shown = "[" ++ ", ".intercalate (vs.map shown) ++ "]" := by
  have items : shownList vs = vs.map shown := by
    induction vs with
    | nil => rfl
    | cons v vs ih => rw [shownList, ih, List.map_cons]
  rw [← items]
  rfl

theorem shown_mapping (fs : List (String × Value)) :
    (mapping fs).shown = "\x7b" ++ ", ".intercalate
      (fs.map fun f => String.ofList (Text.shownText f.1.toList) ++ ": " ++ f.2.shown) ++ "\x7d" := by
  have entries : shownEntries fs =
      fs.map fun f => String.ofList (Text.shownText f.1.toList) ++ ": " ++ f.2.shown := by
    induction fs with
    | nil => rfl
    | cons f fs ih => rw [shownEntries, ih, List.map_cons]
  rw [← entries]
  rfl

/-- Whatever a document holds, it is shown by printable text. -/
theorem IsJson.printable_shown {v : Value} (json : v.IsJson) : Printable v.shown := by
  have comma : Printable ", " := by decide
  induction json with
  | null => decide
  | bool b => cases b <;> decide
  | int n => exact printable_shownInt n
  | float x => exact x.printable_shown
  | str s => exact Text.printable_shownText s.toList
  | list _ ih =>
    rw [shown_list]
    exact (comma.intercalate (List.forall_mem_map.2 ih)).between (by decide) (by decide)
  | mapping _ ih =>
    rw [shown_mapping]
    refine (comma.intercalate (List.forall_mem_map.2 fun f member => ?_)).between ?_ ?_
    · exact ((Text.printable_shownText _).append (by decide)).append (ih f member)
    · decide
    · decide

end Value

/-! ## Names and places -/

theorem printable_tagName {name : String} (tag : name ∈ tagNames) : Printable name := by
  have all : ∀ name ∈ tagNames, Printable name := by decide +kernel
  exact all name tag

theorem printable_fieldKey {key : String} (field : key ∈ fieldKeys) : Printable key := by
  have all : ∀ key ∈ fieldKeys, Printable key := by decide +kernel
  exact all key field

theorem Model.mem_all (m : Model) : m ∈ all :=
  List.mem_of_find?_eq_some m.ofName?_name

theorem Step.Known.printable {s : Step} (known : s.Known) : Printable s.text := by
  cases s with
  | tag name => exact printable_tagName known
  | field key => exact printable_fieldKey known
  | index i => exact printable_shownNat i

theorem Step.known_snoc {path : Path} {key : String} (known : ∀ s ∈ path, s.Known)
    (name : key ∈ fieldKeys) : ∀ s ∈ path ++ [.field key], s.Known := by
  intro s member
  rcases List.mem_append.1 member with front | last
  · exact known s front
  · obtain rfl := List.mem_singleton.1 last
    exact name

theorem printable_pathText {path : Path} (known : ∀ s ∈ path, s.Known) :
    Printable (pathText path) := by
  unfold pathText
  dsimp only
  split
  · decide
  · have dot : Printable "." := by decide
    exact dot.intercalate (List.forall_mem_map.2 fun s member => (known s member).printable)

/-! ## Misplaced parts -/

namespace Node

variable {n m : Node} {path place : Path} {issue : Issue}

theorem Reaches.known {scored : Bool} (reached : Reaches scored n place m) :
    ∀ s ∈ place, s.Known := by
  induction reached with
  | here => simp
  | operand _ _ ih =>
    exact List.forall_mem_cons.2 ⟨by decide, List.forall_mem_cons.2 ⟨trivial, ih⟩⟩
  | rhs _ ih => exact List.forall_mem_cons.2 ⟨by decide, ih⟩
  | lhs _ _ ih => exact List.forall_mem_cons.2 ⟨by decide, ih⟩

theorem known_of_termValueIssue {kind : Kind} (known : ∀ s ∈ path, s.Known)
    (reported : issue ∈ n.termValueIssues kind path) : ∀ s ∈ issue.path, s.Known := by
  obtain ⟨place, m, reached, -, located⟩ := n.mem_termValueIssues.1 reported
  rw [located]
  exact List.forall_mem_append.2 ⟨known, reached.known⟩

theorem known_of_refused {issues : List Issue} (known : ∀ s ∈ path, s.Known)
    (refused : Refused path m issues) (reported : issue ∈ issues) : ∀ s ∈ issue.path, s.Known := by
  have value {v : Node} (reported : issue ∈ Kind.all.flatMap fun kind =>
      v.termValueIssues kind (path ++ [.field "value"])) : ∀ s ∈ issue.path, s.Known := by
    obtain ⟨kind, -, there⟩ := List.mem_flatMap.1 reported
    exact known_of_termValueIssue (Step.known_snoc known (by decide)) there
  cases refused with
  | literal | range =>
    obtain rfl := List.mem_singleton.1 reported
    exact known
  | empty =>
    obtain rfl := List.mem_singleton.1 reported
    exact Step.known_snoc known (by decide)
  | term _ | namedTerm _ => exact value reported

theorem known_of_elementIssue (reported : issue ∈ n.elementIssues) : ∀ s ∈ issue.path, s.Known := by
  have start : ∀ s ∈ ([] : Path), s.Known := by simp
  simp only [elementIssues] at reported
  split at reported
  · cases reported
  · rcases List.mem_append.1 reported with clause | value
    · rw [clauseIssues_eq_flatMap] at clause
      obtain ⟨⟨place, issues⟩, group, there⟩ := List.mem_flatMap.1 clause
      obtain ⟨m, reached, refused⟩ := n.mem_refusals.1 group
      exact known_of_refused reached.known refused there
    · simp only [anyTermValueIssues] at value
      split at value
      · cases value
      · rw [List.mem_flatten] at value
        obtain ⟨issues, attempt, there⟩ := value
        obtain ⟨kind, -, rfl⟩ := List.mem_map.1 attempt
        exact known_of_termValueIssue start there

end Node

theorem Misplacement.printable_message (cause : Misplacement) : Printable cause.message := by
  have labels : ∀ m ∈ Model.all, Printable m.label := by decide +kernel
  cases cause with
  | wrongKind expected found | notTermValue expected found =>
    have name := printable_tagName expected.name_mem_tagNames
    refine .append (name.between ?_ ?_) (labels found found.mem_all)
    · exact .ofChars (by decide)
    · exact .ofChars (by decide)
  | notClause found => exact .append (.ofChars (by decide)) (labels found found.mem_all)
  | emptyOperands c => cases c <;> decide

theorem Issue.printable_text {issue : Issue} (known : ∀ s ∈ issue.path, s.Known) :
    Printable issue.toMessage.text :=
  ((printable_pathText known).append (by decide)).append issue.cause.printable_message

end QueryTree
