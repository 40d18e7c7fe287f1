import QueryTree.Json.Dump
import QueryTree.Proofs.MomentText
import QueryTree.Proofs.Nesting
import QueryTree.Query

/-!
# Dumps of trees

A tree survives its dump: the dump is a form of the tree, nested as deep as the tree, and no entry
point tells the two apart.

* `faithful_dump`          : dumps keep the grammar
* `Value.nest_dump`        : dumps keep the nesting
* `FollowsShape`, `followsShape_dumpText` : the shape of moments in dumps
* `Node.dump_survives`     : the dump of a tree and the tree itself
-/

namespace QueryTree

namespace Value

/-! ## Dumps keep the shape of values -/

theorem dumpList_eq (vs : List Value) : dumpList vs = vs.map dump := by
  induction vs with
  | nil => rfl
  | cons v vs ih => rw [dumpList, ih, List.map_cons]

theorem dumpFields_eq (fs : List (String × Value)) : dumpFields fs = encodeFields dump fs := by
  induction fs with
  | nil => rfl
  | cons f fs ih => rw [dumpFields, ih, encodeFields, encodeFields, List.map_cons]

theorem dump_ofMoment (m : Moment) : (ofMoment m).dump = .str (String.ofList m.dumpText) := by
  rw [ofMoment, dump, DateTime.dumpText_ofUtc]

/-- Dumps keep the grammar. -/
theorem faithful_dump : Faithful dump where
  object m fs := .inl (by rw [dump, dumpFields_eq])
  tuple vs := by rw [dump, items?, dumpList_eq]
  null := rfl
  bool _ := rfl
  number n := by cases n <;> rfl
  text _ := rfl
  operator _ := rfl
  moment m := by
    rw [dump_ofMoment]
    refine .text rfl ?_
    rw [String.toList_ofList, Moment.read_dumpText]

theorem children?_dump (v : Value) : v.dump.children? = v.children?.map (List.map dump) := by
  cases v with
  | list vs | tuple vs => simp [dump, children?, dumpList_eq]
  | record m fs =>
    simp [dump, children?, dumpFields_eq, encodeFields, Function.comp_def]
  | _ => simp [dump, children?]

/-- A dump is nested as deep as what it is a dump of. -/
theorem nest_dump (v : Value) : v.dump.nest = v.nest := by
  induction v using Value.induction with
  | step v ih =>
    have children := children?_dump v
    cases held : v.children? with
    | none =>
      rw [held] at children
      rw [nest_scalar held, nest_scalar children]
    | some vs =>
      rw [held] at children
      have same (k : Nat) : nestList (vs.map dump) ≤ k ↔ nestList vs ≤ k := by
        rw [nestList_le, nestList_le, List.forall_mem_map]
        exact forall₂_congr fun w member => by rw [ih vs held w member]
      rw [nest_container held, nest_container children]
      exact congrArg (· + 1) (eq_of_forall_ge_iff same)

/-- No object is left in a dump, let alone one that lacks a field. -/
theorem complete_dump (v : Value) : v.dump.complete = true := by
  induction v using Value.induction with
  | step v ih =>
    rw [complete_iff]
    constructor
    · cases v <;> rfl
    · intro ws held w member
      rw [children?_dump] at held
      obtain ⟨vs, there, rfl⟩ := Option.map_eq_some_iff.1 held
      obtain ⟨u, inside, rfl⟩ := List.mem_map.1 member
      exact ih vs there u inside

end Value

/-! ## The shape of moments -/

/-- Text of a shape: a digit where the shape has a zero, else the character of the shape. -/
def FollowsShape (shape text : List Char) : Prop :=
  List.Forall₂ (fun s c => if s = '0' then IsAsciiDigit c else c = s) shape text

theorem followsShape_append {shape shape' text text' : List Char} (front : FollowsShape shape text)
    (back : FollowsShape shape' text') : FollowsShape (shape ++ shape') (text ++ text') :=
  List.rel_append front back

theorem followsShape_cons {c : Char} {shape text : List Char} (sign : c ≠ '0')
    (back : FollowsShape shape text) : FollowsShape (c :: shape) (c :: text) :=
  .cons (by rw [if_neg sign]) back

theorem followsShape_padded {width n : Nat} (fits : n < 10 ^ width) (some : 0 < width) :
    FollowsShape (List.replicate width '0') (Text.padded width n) := by
  rw [FollowsShape, List.forall₂_iff_zip]
  refine ⟨by rw [List.length_replicate, length_padded fits some], ?_⟩
  intro s c member
  obtain ⟨zero, digit⟩ := List.of_mem_zip member
  rw [List.eq_of_mem_replicate zero, if_pos rfl]
  exact isAsciiDigit_of_mem_padded digit

/-- Moments are dumped as `YYYY-MM-DDTHH:MM:SS`, six places of the second unless they are all
    zero, and the letter of UTC. -/
theorem followsShape_dumpText (m : Moment) :
    FollowsShape (if m.civil.micro = 0 then "0000-00-00T00:00:00Z".toList
      else "0000-00-00T00:00:00.000000Z".toList) m.dumpText := by
  have fits := CivilTime.fits_of_isValid m.isValid_civil
  have date := followsShape_append (followsShape_padded fits.date.year (by decide)) <|
    followsShape_cons (by decide : '-' ≠ '0') <|
      followsShape_append (followsShape_padded fits.date.month (by decide)) <|
        followsShape_cons (by decide : '-' ≠ '0') (followsShape_padded fits.date.day (by decide))
  have clock := followsShape_append (followsShape_padded fits.hour (by decide)) <|
    followsShape_cons (by decide : ':' ≠ '0') <|
      followsShape_append (followsShape_padded fits.minute (by decide)) <|
        followsShape_cons (by decide : ':' ≠ '0') (followsShape_padded fits.second (by decide))
  have reading := followsShape_append date (followsShape_cons (by decide : 'T' ≠ '0') clock)
  have zone : FollowsShape ['Z'] ['Z'] := followsShape_cons (by decide) .nil
  rw [Moment.dumpText, Moment.fractionText]
  split
  · simpa [List.replicate, Moment.dateText, Moment.clockText] using
      followsShape_append reading zone
  · have places := followsShape_cons (by decide : '.' ≠ '0')
      (followsShape_padded fits.micro (by decide))
    simpa [List.replicate, Moment.dateText, Moment.clockText] using
      followsShape_append (followsShape_append reading places) zone

/-! ## Trees and their dumps -/

/-- A tree is read back from its dump, if there is room for it. -/
theorem Node.decodeIn_dump {n : Node} {room : Room} (fits : n.InRoom room) :
    decodeIn room n.toValue.dump = .done n :=
  decodeIn_eq_done_iff.2 ⟨nodeForm_encoded Value.faithful_dump n, fits⟩

theorem Node.Formed.decode_dump {n : Node} (formed : n.Formed) : decode n.toValue.dump = .done n :=
  decodeIn_dump (formed_iff.1 formed)

/-- The object of a tree and its dump are the same to every check. -/
theorem checkValue_dump {n : Node} (formed : n.Formed) (role : Role) (limit : Int) :
    checkValue role limit n.toValue.dump = checkValue role limit n.toValue := by
  have guarded : guardDepth limit n.toValue.dump = guardDepth limit n.toValue := by
    rw [guardDepth_eq (Value.complete_dump _), guardDepth_eq n.complete_toValue, Value.nest_dump]
  rw [checkValue, checkValue, guarded, formed.decode_dump, formed.decode_toValue]

/-- A well-formed tree survives its dump: it is read back from the dump and from itself, both are
    nested to the same depth, and no entry point tells them apart, whatever the limit.  In the dump
    moments are text, operators are their names, tuples are lists and objects are mappings. -/
theorem Node.dump_survives {n : Node} (formed : n.Formed) :
    decode n.toValue.dump = .done n ∧ decode n.toValue = .done n ∧
    n.toValue.dump.nest = n.toValue.nest ∧
    (∀ limit, validateElement limit n.toValue.dump = validateElement limit n.toValue ∧
      validateClause limit n.toValue.dump = validateClause limit n.toValue ∧
      (∀ kind, validateTermValue kind limit n.toValue.dump =
        validateTermValue kind limit n.toValue) ∧
      toQuery limit n.toValue.dump = toQuery limit n.toValue) ∧
    (∀ m : Moment, (Value.ofMoment m).dump = .str (String.ofList m.dumpText) ∧
      FollowsShape (if m.civil.micro = 0 then "0000-00-00T00:00:00Z".toList
        else "0000-00-00T00:00:00.000000Z".toList) m.dumpText) ∧
    (∀ o, (Value.operator o).dump = .str o.name) ∧
    (∀ vs, (Value.tuple vs).dump = .list (vs.map Value.dump)) ∧
    ∀ model fs, (Value.object model fs).dump = .mapping (encodeFields Value.dump fs) := by
  refine ⟨formed.decode_dump, formed.decode_toValue, Value.nest_dump _, ?_,
    fun m => ⟨Value.dump_ofMoment m, followsShape_dumpText m⟩, ?_, ?_, ?_⟩
  · intro limit
    have element : validateElement limit n.toValue.dump = validateElement limit n.toValue :=
      checkValue_dump formed .element limit
    refine ⟨element, checkValue_dump formed .clause limit, ?_, ?_⟩
    · intro kind
      simp only [validateTermValue, checkValue_dump formed]
    · rw [toQuery, toQuery, element]
  · intro o
    rfl
  · intro vs
    rw [Value.dump, Value.dumpList_eq]
  · intro model fs
    rw [Value.dump, Value.dumpFields_eq]

/-- Documents from a microsecond after the first noon of the year 2024 on. -/
def Node.sinceNoon : Node :=
  .namedTerm ⟨"seen", by decide⟩
    (.range (.date ⟨true, false, .above ⟨738885 * microsPerDay + 43200000001, by decide⟩⟩))

theorem Node.dump_survives_sinceNoon :
    sinceNoon.Formed ∧ decode sinceNoon.toValue.dump = .done sinceNoon ∧
      sinceNoon.toValue.dump.nest = 2 ∧
      toQuery 2 sinceNoon.toValue.dump = toQuery 2 sinceNoon.toValue := by
  have formed : sinceNoon.Formed := formed_iff.2 (by decide)
  obtain ⟨read, -, nest, same, -⟩ := dump_survives formed
  exact ⟨formed, read, nest, (same 2).2.2.2⟩

end QueryTree
