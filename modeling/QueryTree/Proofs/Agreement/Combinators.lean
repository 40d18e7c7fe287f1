import QueryTree.Proofs.Faults

/-!
# Agreement of readings

Two readings agree if a caller is told the same by both: they end with the same result, or with
faults of the same codes at the same places.  The combinators that readers are made of keep
agreement.

* `Fault.Agrees`, `Decoded.Agrees`, `Gathered.Agrees` : faults, readings, sequences of readings
* `Decoded.Agrees.map`, `…combine`, `…bind`, `…under` : combinators
* `gather_agrees`, `decodeSequence_agrees` : sequences are read item by item
* `decodeRequired_agrees`, `decodeAbsentable_agrees` : fields
-/

namespace QueryTree

variable {α β γ : Type}

/-! ## Faults -/

/-- Two faults have the same place and the same code.  The values that they show may differ, but
    both can be written or neither can. -/
structure Fault.Agrees (f g : Fault) : Prop where
  path : f.path = g.path
  code : f.cause.code = g.cause.code
  shown : f.input.writable = g.input.writable

theorem Fault.Agrees.refl (f : Fault) : f.Agrees f :=
  ⟨rfl, rfl, rfl⟩

theorem Fault.Agrees.under {f g : Fault} (agrees : f.Agrees g) (s : Step) :
    (f.under s).Agrees (g.under s) :=
  ⟨congrArg (s :: ·) agrees.path, agrees.code, agrees.shown⟩

theorem faults_agree_under {fs gs : List Fault} (agree : List.Forall₂ Fault.Agrees fs gs)
    (s : Step) : List.Forall₂ Fault.Agrees (fs.map (Fault.under s)) (gs.map (Fault.under s)) := by
  induction agree with
  | nil => exact .nil
  | cons agrees _ ih => exact .cons (agrees.under s) ih

theorem faults_agree_refl (fs : List Fault) : List.Forall₂ Fault.Agrees fs fs :=
  List.forall₂_same.2 fun f _ => .refl f

/-! ## Readings -/

inductive Decoded.Agrees : Decoded α → Decoded α → Prop where
  | done (a : α) : Agrees (.done a) (.done a)
  | faulty {f g : Fault} {fs gs : List Fault} :
      f.Agrees g → List.Forall₂ Fault.Agrees fs gs → Agrees (.faulty f fs) (.faulty g gs)
  | outsideCalendar : Agrees .outsideCalendar .outsideCalendar

namespace Decoded.Agrees

variable {d e : Decoded α}

theorem refl (d : Decoded α) : d.Agrees d := by
  cases d with
  | done a => exact .done a
  | faulty f fs => exact .faulty (.refl f) (faults_agree_refl fs)
  | outsideCalendar => exact .outsideCalendar

theorem outside (agrees : d.Agrees e) : d = .outsideCalendar ↔ e = .outsideCalendar := by
  cases agrees with
  | done a => exact .rfl
  | faulty => exact iff_of_false (by rintro ⟨⟩) (by rintro ⟨⟩)
  | outsideCalendar => exact .rfl

theorem fault {c c' : Cause} {v w : Value} (code : c.code = c'.code)
    (shown : v.writable = w.writable) :
    (Decoded.fault c v : Decoded α).Agrees (Decoded.fault c' w) :=
  .faulty ⟨rfl, code, shown⟩ .nil

theorem missing {path : Path} {v w : Value} (shown : v.writable = w.writable) :
    (Decoded.faulty ⟨path, .fieldMissing, v⟩ [] : Decoded α).Agrees
      (.faulty ⟨path, .fieldMissing, w⟩ []) :=
  .faulty ⟨rfl, rfl, shown⟩ .nil

theorem ofFaults {fs gs : List Fault} (agree : List.Forall₂ Fault.Agrees fs gs) (a : α) :
    (Decoded.ofFaults fs a).Agrees (Decoded.ofFaults gs a) := by
  cases agree with
  | nil => exact .done a
  | cons agrees rest => exact .faulty agrees rest

theorem map (agrees : d.Agrees e) (f : α → β) : (d.map f).Agrees (e.map f) := by
  cases agrees with
  | done a => exact .done (f a)
  | faulty first rest => exact .faulty first rest
  | outsideCalendar => exact .outsideCalendar

theorem combine {d' e' : Decoded β} (first : d.Agrees e) (second : d'.Agrees e')
    (f : α → β → γ) : (Decoded.combine f d d').Agrees (Decoded.combine f e e') := by
  cases first with
  | outsideCalendar => exact .outsideCalendar
  | done a =>
    cases second with
    | done b => exact .done (f a b)
    | faulty head rest => exact .faulty head rest
    | outsideCalendar => exact .outsideCalendar
  | faulty head rest =>
    cases second with
    | done b => exact .faulty head rest
    | faulty head' rest' => exact .faulty head (List.rel_append rest (.cons head' rest'))
    | outsideCalendar => exact .outsideCalendar

theorem bind {f g : α → Decoded β} (agrees : d.Agrees e) (rest : ∀ a, (f a).Agrees (g a)) :
    (d.bind f).Agrees (e.bind g) := by
  cases agrees with
  | done a => exact rest a
  | faulty first others => exact .faulty first others
  | outsideCalendar => exact .outsideCalendar

theorem under (agrees : d.Agrees e) (s : Step) : (d.under s).Agrees (e.under s) := by
  cases agrees with
  | done a => exact .done a
  | faulty first rest => exact .faulty (first.under s) (faults_agree_under rest s)
  | outsideCalendar => exact .outsideCalendar

theorem underPath (agrees : d.Agrees e) (path : Path) :
    (d.underPath path).Agrees (e.underPath path) := by
  induction path with
  | nil => exact agrees
  | cons s path ih => exact ih.under s

/-- In both there is room for a class, or in neither. -/
theorem read {room : Room} {m : Model} {v w : Value} {inside inside' : Room → Decoded α}
    (agree : ∀ inner, (inside inner).Agrees (inside' inner)) (shown : v.writable = w.writable) :
    (room.read m v inside).Agrees (room.read m w inside') := by
  unfold Room.read
  split
  · exact agree _
  · exact .fault rfl shown

end Decoded.Agrees

/-! ## Sequences -/

/-- The same items could be read, and the others have faults that agree. -/
structure Gathered.Agrees (g h : Gathered α) : Prop where
  outside : g.outside = h.outside
  faults : List.Forall₂ Fault.Agrees g.faults h.faults
  items : g.items = h.items

namespace Gathered.Agrees

theorem cons {d e : Decoded α} {g h : Gathered α} (i : Nat) (item : d.Agrees e)
    (rest : g.Agrees h) : (Gathered.cons i d g).Agrees (Gathered.cons i e h) := by
  obtain ⟨outside, faults, items⟩ := rest
  cases item with
  | done a => exact ⟨outside, faults, congrArg (a :: ·) items⟩
  | faulty first others =>
    have agree := faults_agree_under (.cons first others) (.index i)
    exact ⟨outside, List.rel_append agree faults, items⟩
  | outsideCalendar => exact ⟨rfl, faults, items⟩

theorem atLeast {g h : Gathered α} {v w : Value} (agrees : g.Agrees h)
    (shown : v.writable = w.writable) (least : Nat) :
    (g.atLeast least v).Agrees (h.atLeast least w) := by
  obtain ⟨outside, faults, items⟩ := agrees
  unfold Gathered.atLeast
  rw [outside, items]
  split
  · exact .outsideCalendar
  · refine .ofFaults (List.rel_append faults ?_) _
    split
    · exact .cons ⟨rfl, rfl, shown⟩ .nil
    · exact .nil

end Gathered.Agrees

theorem gather_agrees {read : Value → Decoded α} {vs ws : List Value}
    (reads : List.Forall₂ (fun v w => (read v).Agrees (read w)) vs ws) (i : Nat) :
    (gather read i vs).Agrees (gather read i ws) := by
  induction reads generalizing i with
  | nil => exact ⟨rfl, .nil, rfl⟩
  | cons here _ ih => exact .cons i here (ih (i + 1))

theorem decodeSequence_agrees {read : Value → Decoded α} {v w : Value} (least : Nat)
    (reads : Option.Rel (List.Forall₂ fun v w => (read v).Agrees (read w)) v.items? w.items?)
    (shown : v.writable = w.writable) :
    (decodeSequence least read v).Agrees (decodeSequence least read w) := by
  unfold decodeSequence
  generalize v.items? = vs, w.items? = ws at reads
  cases reads with
  | none => exact .fault rfl shown
  | some items => exact (gather_agrees items 0).atLeast shown least

/-! ## Fields -/

section Fields

variable {read : Value → Decoded α} {key : String} {v w : Value} {fs gs : List (String × Value)}

theorem decodeRequired_agrees
    (reads : Option.Rel (fun v w => (read v).Agrees (read w)) (fs.lookup key) (gs.lookup key))
    (shown : v.writable = w.writable) :
    (decodeRequired key read v fs).Agrees (decodeRequired key read w gs) := by
  unfold decodeRequired
  generalize fs.lookup key = v?, gs.lookup key = w? at reads
  cases reads with
  | none => exact .missing shown
  | some agrees => exact agrees.under (.field key)

theorem decodeAbsentable_agrees
    (reads : Option.Rel (fun v w => (decodeOptional read v).Agrees (decodeOptional read w))
      (fs.lookup key) (gs.lookup key)) :
    (decodeAbsentable key read fs).Agrees (decodeAbsentable key read gs) := by
  unfold decodeAbsentable
  generalize fs.lookup key = v?, gs.lookup key = w? at reads
  cases reads with
  | none => exact .done none
  | some agrees => exact agrees.under (.field key)

end Fields

end QueryTree
