import QueryTree.Json.Reader
import QueryTree.Proofs.Outcomes

/-!
# Values of documents

What is read from a document is a value of JSON, and so are its parts.  The reader keeps the
containers that are still open on a stack; the invariant is that all values in its hands, those in
the open containers included, are values of JSON.

* `Frame.IsJson`, `Mode.IsJson`, `Machine.IsJson` : the invariant
* `wordsJson_tokens`     : the tokens of a text
* `isJson_step`, `isJson_run` : one token, all tokens
* `isJson_read`          : documents
* `Value.IsJson.of_walk`, `Value.IsJson.of_attribute` : parts of documents
-/

namespace QueryTree

/-- What holds of all values that are put holds of those that end up under the keys. -/
theorem forall_putEntry {α : Type} {p : α → Prop} {key : String} {a : α} {es : List (String × α)}
    (new : p a) (old : ∀ e ∈ es, p e.2) : ∀ e ∈ putEntry key a es, p e.2 := by
  induction es with
  | nil => exact List.forall_mem_singleton.2 new
  | cons e es ih =>
    obtain ⟨k, b⟩ := e
    obtain ⟨here, rest⟩ := List.forall_mem_cons.1 old
    unfold putEntry
    split
    · exact List.forall_mem_cons.2 ⟨new, rest⟩
    · exact List.forall_mem_cons.2 ⟨here, ih rest⟩

namespace Json

/-! ## The invariant -/

def Frame.IsJson : Frame → Prop
  | .array items => ∀ v ∈ items, v.IsJson
  | .object fields _ => ∀ f ∈ fields, f.2.IsJson

def Mode.IsJson : Mode → Prop
  | .afterItem items => ∀ v ∈ items, v.IsJson
  | .key fields | .colon fields _ | .afterField fields => ∀ f ∈ fields, f.2.IsJson
  | .finished v => v.IsJson
  | .value | .firstItem | .firstKey => True

structure Machine.IsJson (m : Machine) : Prop where
  mode : m.mode.IsJson
  stack : ∀ frame ∈ m.stack, frame.IsJson

/-- A word among the tokens stands for a value of JSON. -/
def Token.WordJson (t : Token) : Prop :=
  ∀ v, t.lexeme = .word v → v.IsJson

/-! ## Tokens -/

theorem isJson_word {w : List Char × Value} (known : w ∈ words) : w.2.IsJson := by
  simp only [words, List.mem_cons, List.not_mem_nil, or_false] at known
  rcases known with rfl | rfl | rfl | rfl | rfl | rfl
  · exact .null
  · exact .bool true
  · exact .bool false
  · exact .float .nan
  · exact .float (.infinite false)
  · exact .float (.infinite true)

theorem lexemeAt_word {c : Char} {rest : List Char} {v : Value}
    (said : (lexemeAt c rest).1 = .word v) : v.IsJson := by
  unfold lexemeAt at said
  split at said
  · cases said
  · cases said
  · cases said
  · cases said
  · cases said
  · cases said
  · split at said <;> cases said
  · split at said
    · next known =>
      cases said
      exact isJson_word (List.mem_of_find?_eq_some known)
    · split at said <;> cases said

theorem wordsJson_tokens (cs : List Char) (inside position : Nat) :
    ∀ t ∈ tokens inside position cs, t.WordJson := by
  induction cs generalizing inside position with
  | nil => simp [tokens]
  | cons c rest ih =>
    unfold tokens
    split
    · exact ih _ _
    · split
      · exact ih _ _
      · exact List.forall_mem_cons.2 ⟨fun v said => lexemeAt_word said, ih _ _⟩

/-! ## The machine -/

section Steps

variable {v : Value} {stack : List Frame} {t : Token} {m next : Machine}

theorem isJson_give (value : v.IsJson) (around : ∀ frame ∈ stack, frame.IsJson) :
    (give v stack).IsJson := by
  cases stack with
  | nil => exact ⟨value, around⟩
  | cons frame stack =>
    obtain ⟨inner, outer⟩ := List.forall_mem_cons.1 around
    cases frame with
    | array items => exact ⟨List.forall_mem_cons.2 ⟨value, inner⟩, outer⟩
    | object fields key => exact ⟨List.forall_mem_cons.2 ⟨value, inner⟩, outer⟩

theorem isJson_closeFields {fields : List (String × Value)} (all : ∀ f ∈ fields, f.2.IsJson) :
    (closeFields fields).IsJson := by
  apply Value.IsJson.mapping
  induction fields with
  | nil => simp
  | cons f fields ih =>
    obtain ⟨last, before⟩ := List.forall_mem_cons.1 all
    exact forall_putEntry last (ih before)

theorem isJson_openFrame {mode : Mode} {position : Nat} (start : mode.IsJson)
    (around : ∀ frame ∈ stack, frame.IsJson) (gone : openFrame mode position stack = .ok next) :
    next.IsJson := by
  unfold openFrame at gone
  split at gone
  · cases gone
    exact ⟨start, around⟩
  · cases gone

theorem isJson_numberValue {n : Numeral} (read : numberValue n = .ok v) : v.IsJson := by
  unfold numberValue at read
  split at read
  · split at read
    · cases read
    · cases read
      exact .int _
  · cases read
    exact .float _

theorem isJson_valueStep (word : t.WordJson) (around : ∀ frame ∈ stack, frame.IsJson)
    (gone : valueStep t stack = .ok next) : next.IsJson := by
  have starts : Mode.firstItem.IsJson ∧ Mode.firstKey.IsJson := ⟨trivial, trivial⟩
  unfold valueStep at gone
  split at gone
  · exact isJson_openFrame starts.1 around gone
  · exact isJson_openFrame starts.2 around gone
  · next v said =>
    cases gone
    exact isJson_give (word v said) around
  · split at gone
    · next number =>
      cases gone
      exact isJson_give (isJson_numberValue number) around
    · cases gone
  · next content _ =>
    cases text : textOf t.position content with
    | error e =>
      rw [text] at gone
      cases gone
    | ok s =>
      rw [text] at gone
      cases gone
      exact isJson_give (.str s) around
  · cases gone

theorem isJson_keyStep {fields : List (String × Value)} (all : ∀ f ∈ fields, f.2.IsJson)
    (around : ∀ frame ∈ stack, frame.IsJson) (gone : keyStep t fields stack = .ok next) :
    next.IsJson := by
  unfold keyStep at gone
  split at gone
  · next content _ =>
    cases text : textOf t.position content with
    | error e =>
      rw [text] at gone
      cases gone
    | ok s =>
      rw [text] at gone
      cases gone
      exact ⟨all, around⟩
  · cases gone

/-- Every token keeps the invariant. -/
theorem isJson_step (json : m.IsJson) (word : t.WordJson) (gone : step m t = .ok next) :
    next.IsJson := by
  obtain ⟨mode, stack⟩ := m
  obtain ⟨held, around⟩ := json
  dsimp only at held around
  have inArray {items : List Value} (all : ∀ v ∈ items, v.IsJson) :
      ∀ frame ∈ Frame.array items :: stack, frame.IsJson :=
    List.forall_mem_cons.2 ⟨all, around⟩
  unfold step at gone
  dsimp only at gone
  split at gone
  · exact isJson_valueStep word around gone
  · cases gone
    exact isJson_give (.list (by simp)) around
  · exact isJson_valueStep word (inArray (by simp)) gone
  · cases gone
    refine isJson_give (.list fun v member => ?_) around
    exact held v (List.mem_reverse.1 member)
  · cases gone
    exact ⟨trivial, inArray held⟩
  · cases gone
  · cases gone
    exact isJson_give (.mapping (by simp)) around
  · exact isJson_keyStep (by simp) around gone
  · exact isJson_keyStep held around gone
  · cases gone
    exact ⟨trivial, List.forall_mem_cons.2 ⟨held, around⟩⟩
  · cases gone
  · cases gone
    exact isJson_give (isJson_closeFields held) around
  · cases gone
    exact ⟨held, around⟩
  · cases gone
  · cases gone

theorem isJson_run {length : Nat} {ts : List Token} (json : m.IsJson)
    (words : ∀ t ∈ ts, t.WordJson) (done : run length m ts = .ok v) : v.IsJson := by
  induction ts generalizing m with
  | nil =>
    obtain ⟨held, -⟩ := json
    rw [run] at done
    unfold finish at done
    split at done
    · next v finished =>
      rw [finished] at held
      cases done
      exact held
    all_goals cases done
  | cons t ts ih =>
    obtain ⟨word, rest⟩ := List.forall_mem_cons.1 words
    rw [run] at done
    cases gone : step m t with
    | error e =>
      rw [gone] at done
      cases done
    | ok next =>
      rw [gone] at done
      exact ih (isJson_step json word gone) rest done

end Steps

/-- Whatever is read from a document is a value of JSON. -/
theorem isJson_read {cs : List Char} {v : Value} (done : read cs = .ok v) : v.IsJson := by
  unfold read at done
  split at done
  · cases done
  · have start : Machine.IsJson ⟨.value, []⟩ := ⟨trivial, by simp⟩
    exact isJson_run start (wordsJson_tokens cs 0 0) done

end Json

/-! ## Parts -/

namespace Value

theorem IsJson.of_child {v w : Value} {vs : List Value} (json : v.IsJson)
    (held : v.children? = some vs) (member : w ∈ vs) : w.IsJson := by
  cases json with
  | list all =>
    cases held
    exact all w member
  | mapping all =>
    cases held
    obtain ⟨f, there, rfl⟩ := List.mem_map.1 member
    exact all f there
  | _ => cases held

theorem IsJson.of_walk {v w : Value} {path : Path} (json : v.IsJson)
    (reached : v.walk path = some w) : w.IsJson := by
  refine walk_induction (fun _ _ held json _ => json.of_child held) ?_ reached json
  exact fun l r left right => .list (by simp [left, right])

/-- What stands under a key in a document is a part of it. -/
theorem IsJson.of_attribute {v w : Value} {key : String} (json : v.IsJson)
    (found : v.attribute key = .found w) : w.IsJson := by
  cases json with
  | @mapping fs all =>
    have same : Attribute.ofOption (fs.lookup key) = .found w := found
    cases given : fs.lookup key with
    | none =>
      rw [given] at same
      cases same
    | some u =>
      rw [given] at same
      cases same
      exact all _ (mem_of_lookup given)
  | _ => cases found

end Value

end QueryTree
