import QueryTree.Proofs.Decoding

/-!
# The grammar of values

What tagged records, numbers, moments and sequences look like as dynamic values, without
reference to the readers; the readers of scalars decide it.

* `TextAt`, `CarriesTags`, `Tagged` : tags among the fields of a mapping or object
* `NumberForm`, `MomentForm` : scalars
* `SequenceForm`       : lists and tuples
-/

namespace QueryTree

variable {α : Type}

/-! ## Names -/

/-- The member with a name is found by the name, if every member is found by its own. -/
theorem find?_name_eq_some {name : α → String} {all : List α} {text : String} {a : α}
    (own : ∀ a, all.find? (name · == name a) = some a) :
    all.find? (name · == text) = some a ↔ text = name a := by
  constructor
  · intro found
    have named := List.find?_some found
    exact (beq_iff_eq.1 named).symm
  · rintro rfl
    exact own a

/-! ## Tags -/

/-- The value under a key counts as a string and says the text. -/
def TextAt (key : String) (fs : List (String × Value)) (text : String) : Prop :=
  ∃ v, fs.lookup key = some v ∧ v.text? = some text

/-- The fields carry the tags of a class. -/
structure CarriesTags (model : Model) (fs : List (String × Value)) : Prop where
  -- the tag of the class, if the class has one
  type : ∀ tag, model.tag? = some tag → TextAt "type" fs tag
  -- the tag of the kind, if the class has one
  kind : ∀ tag, model.kindTag? = some tag → TextAt "kind" fs tag

/-- The value is a plain mapping or an object of the class, has the given fields, and carries the
    tags of the class. -/
structure Tagged (model : Model) (v : Value) (fs : List (String × Value)) : Prop
    extends CarriesTags model fs where
  -- it has these fields
  record : v = .mapping fs ∨ v = .object model fs

theorem attribute_record {m : Option Model} {fs : List (String × Value)} {key : String} :
    (Value.record m fs).attribute key = .ofOption (fs.lookup key) := rfl

theorem fitsModel_iff {model : Model} {m : Option Model} {fs : List (String × Value)} :
    fitsModel model m = true ↔
      Value.record m fs = .mapping fs ∨ Value.record m fs = .object model fs := by
  simp [fitsModel]

namespace Tagged

variable {model : Model} {v : Value} {fs : List (String × Value)}

theorem exists_record (tagged : Tagged model v fs) : ∃ m, v = .record m fs := by
  rcases tagged.record with rfl | rfl <;> exact ⟨_, rfl⟩

theorem fits {m : Option Model} {gs : List (String × Value)}
    (tagged : Tagged model (.record m gs) fs) : fitsModel model m = true := by
  rcases tagged.record with record | record <;> cases record <;> simp [fitsModel]

end Tagged

/-! ## Scalars and sequences -/

/-- A number: an integer or a finite binary number, never a truth value. -/
inductive NumberForm : Value → Number → Prop where
  | int (n : Int) : NumberForm (.int n) (.int n)
  | float (x : Binary64) : NumberForm (.float (.finite x)) (.float x)

/-- A list or tuple whose items are forms of the given things, in order. -/
def SequenceForm (form : Value → α → Prop) (v : Value) (xs : List α) : Prop :=
  ∃ vs, v.items? = some vs ∧ List.Forall₂ form vs xs

/-- A moment: a date, a reading of a clock, or ISO text, each taken as of UTC. -/
inductive MomentForm : Value → Moment → Prop where
  | date (d : Day) : MomentForm (.date d) (Moment.ofDay d)
  | dateTime {t : DateTime} {m : Moment} : t.utc? = some m → MomentForm (.dateTime t) m
  | text {v : Value} {s : String} {m : Moment} :
      v.text? = some s → Moment.read s.toList = .ok m → MomentForm v m

theorem NumberForm.ofNumber (n : Number) : NumberForm (.ofNumber n) n := by
  cases n with
  | int n => exact .int n
  | float x => exact .float x

theorem Number.decode_eq_done {v : Value} {n : Number} :
    Number.decode v = .done n ↔ NumberForm v n := by
  constructor
  · intro done
    cases v with
    | int k => cases done; exact .int k
    | float x =>
      cases x with
      | finite x => cases done; exact .float x
      | infinite _ | nan => cases done
    | _ => cases done
  · rintro (_ | _) <;> rfl

theorem Number.decode_ne_outside (v : Value) : Number.decode v ≠ .outsideCalendar := by
  cases v with
  | float x => cases x <;> simp [Number.decode]
  | _ => simp [Number.decode]

theorem Moment.decode_eq_done {v : Value} {m : Moment} :
    Moment.decode v = .done m ↔ MomentForm v m := by
  constructor
  · intro done
    unfold Moment.decode at done
    split at done
    · cases done
      exact .date _
    · split at done
      · next found =>
        cases done
        exact .dateTime found
      · cases done
    · split at done
      · simp at done
      · next said =>
        split at done
        · next read =>
          cases done
          exact .text said read
        · simp at done
        · cases done
  · rintro (d | found | ⟨said, read⟩)
    · rfl
    · simp [decode, found]
    · cases v <;> simp_all [decode, Value.text?]

theorem decodeString_eq_done {v : Value} {s : String} :
    decodeString v = .done s ↔ v.text? = some s := by
  unfold decodeString
  cases v.text? <;> simp

theorem decodeString_ne_outside (v : Value) : decodeString v ≠ .outsideCalendar := by
  unfold decodeString
  cases v.text? <;> simp

theorem decodeBool_eq_done {v : Value} {b : Bool} : decodeBool v = .done b ↔ v = .bool b := by
  cases v <;> simp [decodeBool]

theorem decodeBool_ne_outside (v : Value) : decodeBool v ≠ .outsideCalendar := by
  cases v <;> simp [decodeBool]

theorem FieldName.decode_eq_done {v : Value} {f : FieldName} :
    FieldName.decode v = .done f ↔ v.text? = some f.text := by
  unfold FieldName.decode
  cases v.text? with
  | none => simp
  | some s =>
    by_cases empty : s = ""
    · have other : "" ≠ f.text := f.nonempty.symm
      simp [empty, other]
    · obtain ⟨text, nonempty⟩ := f
      simp [empty]

theorem FieldName.decode_ne_outside (v : Value) : FieldName.decode v ≠ .outsideCalendar := by
  unfold FieldName.decode
  cases v.text? with
  | none => simp
  | some s => by_cases empty : s = "" <;> simp [empty]

end QueryTree
