import QueryTree.Proofs.Equality.Numbers
import QueryTree.Proofs.Equality.Pieces
import QueryTree.Proofs.Objects
import QueryTree.Proofs.Rendering
import QueryTree.Value.Equality

/-!
# Equal trees

Equal trees have the same pieces up to the kinds of their numbers, so their texts are the same
exactly when their numbers are written alike.

* `Value.equalList_iff`, `Value.equal_object` : equal sequences and objects
* `Node.equal_self` : the object of a tree equals itself
* `Geometry.faces`, `Literal.faces`, `Range.faces`, `Node.faces` : equal trees face each other
* `Node.render_eq_iff_of_equal` : when equal trees are one query
-/

namespace QueryTree

variable {α : Type}

/-! ## Equal values -/

namespace Value

theorem equalList_iff {vs ws : List Value} :
    equalList vs ws = true ↔ List.Forall₂ (fun v w => v.equal w = true) vs ws := by
  induction vs generalizing ws with
  | nil => cases ws <;> simp [equalList]
  | cons v vs ih => cases ws <;> simp [equalList, ih]

theorem equal_of_lookup {fs gs : List (String × Value)} (all : equalFields fs gs = true)
    {key : String} {v w : Value} (left : fs.lookup key = some v) (right : gs.lookup key = some w) :
    v.equal w = true := by
  have member := mem_of_lookup left
  clear left
  induction fs with
  | nil => cases member
  | cons f fs ih =>
    obtain ⟨k, u⟩ := f
    rw [equalFields] at all
    cases found : gs.lookup k with
    | none =>
      rw [found] at all
      cases all
    | some w' =>
      rw [found] at all
      obtain ⟨first, rest⟩ := Bool.and_eq_true_iff.1 all
      rcases List.mem_cons.1 member with same | later
      · cases same
        cases right.symm.trans found
        exact first
      · exact ih rest later

/-- Equal objects are of one class, and what they hold under one name is equal. -/
theorem equal_object {m m' : Model} {fs gs : List (String × Value)}
    (equal : (object m fs).equal (object m' gs) = true) :
    m = m' ∧ ∀ key v w, fs.lookup key = some v → gs.lookup key = some w → v.equal w = true := by
  simp only [Value.equal, Bool.and_eq_true, beq_iff_eq, Option.some.injEq] at equal
  exact ⟨equal.1.1, fun key v w => equal_of_lookup equal.2⟩

theorem equal_tuple {f : α → Value} {xs ys : List α}
    (equal : (tuple (xs.map f)).equal (tuple (ys.map f)) = true) :
    List.Forall₂ (fun x y => (f x).equal (f y) = true) xs ys := by
  rw [Value.equal] at equal
  have all := equalList_iff.1 equal
  rwa [List.forall₂_map_left_iff, List.forall₂_map_right_iff] at all

theorem equal_ofNumber {m n : Number} (equal : (ofNumber m).equal (ofNumber n) = true) :
    m.sameValue n = true := by
  cases m with
  | int m =>
    cases n with
    | int n =>
      have same : m = n := by
        simpa [ofNumber, Value.equal, sameScalar, numeric?, sameNumber] using equal
      rw [same, Number.sameValue, beq_self_eq_true]
    | float x => exact equal
  | float x =>
    cases n with
    | int n => exact equal
    | float y => exact equal

theorem equal_ofMoment {m m' : Moment} (equal : (ofMoment m).equal (ofMoment m') = true) :
    m = m' := by
  have micros : (m.micros : Int) - 0 = m'.micros - 0 := eq_of_beq equal
  cases m
  cases m'
  simp only [Int.sub_zero, Int.natCast_inj] at micros
  subst micros
  rfl

theorem equal_str {s t : String} (equal : (str s).equal (str t) = true) : s = t :=
  eq_of_beq (show (s == t) = true from equal)

theorem equal_bool {a b : Bool} (equal : (bool a).equal (bool b) = true) : a = b := by
  revert equal
  cases a <;> cases b <;> decide

theorem equal_operator {o o' : SpatialOperator} (equal : (operator o).equal (operator o') = true) :
    o = o' := by
  revert equal
  cases o <;> cases o' <;> decide

/-! ## Values that equal themselves -/

end Value

theorem Position.faces {p q : Position} (equal : p.toValue.equal q.toValue = true) :
    List.Forall₂ Piece.Faces p.pieces q.pieces := by
  refine faces_intercalate ?_
  rw [List.forall₂_map_left_iff, List.forall₂_map_right_iff]
  refine (Value.equal_tuple equal).imp fun m n equal => ?_
  exact .cons (.number (Value.equal_ofNumber equal)) .nil

theorem faces_positionsPieces {ps qs : List Position}
    (equal : (positionsValue ps).equal (positionsValue qs) = true) :
    List.Forall₂ Piece.Faces (positionsPieces ps) (positionsPieces qs) :=
  faces_members ((Value.equal_tuple equal).imp fun _ _ => Position.faces)

theorem faces_ringsPieces {rs ss : NonEmpty Ring}
    (equal : (ringsValue rs).equal (ringsValue ss) = true) :
    List.Forall₂ Piece.Faces (ringsPieces rs.toList) (ringsPieces ss.toList) :=
  faces_members ((Value.equal_tuple equal).imp fun _ _ => faces_positionsPieces)

namespace Geometry

theorem exists_object (g : Geometry) : ∃ fs, g.toValue = .object (.geometry g.shape) fs := by
  cases g <;> exact ⟨_, rfl⟩

theorem shape_eq_of_equal {g h : Geometry} (equal : g.toValue.equal h.toValue = true) :
    g.shape = h.shape := by
  obtain ⟨fs, object⟩ := g.exists_object
  obtain ⟨gs, object'⟩ := h.exists_object
  rw [object, object'] at equal
  exact Model.geometry.inj (Value.equal_object equal).1

theorem faces {g h : Geometry} (equal : g.toValue.equal h.toValue = true) :
    List.Forall₂ Piece.Faces g.pieces h.pieces := by
  have shape := shape_eq_of_equal equal
  induction h using Geometry.induction generalizing g with
  | plain h plain =>
    cases h with
    | collection => exact absurd rfl plain
    | point q =>
      cases g with
      | point p =>
        have coordinates := (Value.equal_object equal).2 "coordinates" _ _ rfl rfl
        exact .cons (.plain _) (faces_commaPieces (.cons (Position.faces coordinates) .nil))
      | _ => cases shape
    | multiPoint qs =>
      cases g with
      | multiPoint ps =>
        have coordinates := (Value.equal_object equal).2 "coordinates" _ _ rfl rfl
        refine .cons (.plain _) (faces_members ((Value.equal_tuple coordinates).imp ?_))
        exact fun p q equal => faces_commaPieces (.cons (Position.faces equal) .nil)
      | _ => cases shape
    | lineString k =>
      cases g with
      | lineString l =>
        have coordinates := (Value.equal_object equal).2 "coordinates" _ _ rfl rfl
        exact .cons (.plain _) (faces_positionsPieces coordinates)
      | _ => cases shape
    | multiLineString ks =>
      cases g with
      | multiLineString ls =>
        have coordinates := (Value.equal_object equal).2 "coordinates" _ _ rfl rfl
        refine .cons (.plain _) (faces_members ((Value.equal_tuple coordinates).imp ?_))
        exact fun l k => faces_positionsPieces
      | _ => cases shape
    | polygon ss =>
      cases g with
      | polygon rs =>
        have coordinates := (Value.equal_object equal).2 "coordinates" _ _ rfl rfl
        exact .cons (.plain _) (faces_ringsPieces coordinates)
      | _ => cases shape
    | multiPolygon qs =>
      cases g with
      | multiPolygon ps =>
        have coordinates := (Value.equal_object equal).2 "coordinates" _ _ rfl rfl
        refine .cons (.plain _) (faces_members ((Value.equal_tuple coordinates).imp ?_))
        exact fun rs ss => faces_ringsPieces
      | _ => cases shape
  | collection h hs ih =>
    cases g with
    | collection g gs =>
      have members := (Value.equal_object equal).2 "geometries" _ _ rfl rfl
      rw [toValues_eq, toValues_eq, ← List.map_cons, ← List.map_cons] at members
      show List.Forall₂ Piece.Faces (_ :: commaPieces (g.pieces :: piecesList gs))
        (_ :: commaPieces (h.pieces :: piecesList hs))
      rw [piecesList_eq_map, piecesList_eq_map, ← List.map_cons, ← List.map_cons]
      refine .cons (.plain _) (faces_members ?_)
      exact forall₂_imp_mem (fun k member g equal => ih k member equal (shape_eq_of_equal equal))
        (Value.equal_tuple members)
    | _ => cases shape

end Geometry

/-! ## Equal leaves and ranges -/

theorem SpatialPredicate.faces {p q : SpatialPredicate} (equal : p.toValue.equal q.toValue = true) :
    List.Forall₂ Piece.Faces p.pieces q.pieces := by
  have fields := (Value.equal_object equal).2
  have op : p.op = q.op := Value.equal_operator (fields "op" _ _ rfl rfl)
  have geom := Geometry.faces (fields "geom" _ _ rfl rfl)
  rw [pieces, pieces, op]
  exact .cons (.plain _) (faces_commaPieces (.cons geom .nil))

theorem Literal.faces {l k : Literal} (equal : l.toValue.equal k.toValue = true) :
    List.Forall₂ Piece.Faces l.pieces k.pieces := by
  obtain ⟨model, fields⟩ := Value.equal_object equal
  have kind : l.kind = k.kind := Model.literal.inj model
  have content := fields "value" l.content k.content rfl rfl
  cases l with
  | string s =>
    cases k with
    | string t =>
      rw [Value.equal_str content]
      exact .cons (.plain _) .nil
    | _ => cases kind
  | number m =>
    cases k with
    | number n => exact .cons (.number (Value.equal_ofNumber content)) .nil
    | _ => cases kind
  | date m =>
    cases k with
    | date m' =>
      rw [Value.equal_ofMoment content]
      exact .cons (.plain _) .nil
    | _ => cases kind
  | glob s =>
    cases k with
    | glob t =>
      rw [Value.equal_str content]
      exact .cons (.plain _) .nil
    | _ => cases kind
  | spatial p =>
    cases k with
    | spatial q =>
      have inside := faces_quoted (SpatialPredicate.faces content)
      exact .cons (.plain _) (List.rel_append inside (.cons (.plain _) .nil))
    | _ => cases kind

section Bounds

variable {toValue : α → Value} {inPiece : α → Piece}
  (there : ∀ a, Value.equal .null (toValue a) = false ∧ (toValue a).equal .null = false)
  (facing : ∀ a a', (toValue a).equal (toValue a') = true → (inPiece a).Faces (inPiece a'))

include there facing

/-- Bounds that are there face each other, and so do those that are absent. -/
theorem faces_boundPiece {bound bound' : Option α}
    (equal : (boundValue toValue bound).equal (boundValue toValue bound') = true) :
    (boundPiece inPiece bound).Faces (boundPiece inPiece bound') := by
  cases bound with
  | none =>
    cases bound' with
    | none => exact .plain _
    | some a' => exact absurd equal (by simp [boundValue, there a'])
  | some a =>
    cases bound' with
    | none => exact absurd equal (by simp [boundValue, there a])
    | some a' => exact facing a a' equal

theorem Bounds.faces {kind : OrderedKind} {b b' : Bounds α}
    (equal : (b.toValue kind toValue).equal (b'.toValue kind toValue) = true) :
    List.Forall₂ Piece.Faces (b.pieces inPiece) (b'.pieces inPiece) := by
  have fields := (Value.equal_object equal).2
  have closedLower := Value.equal_bool (fields "closed_lower" _ _ rfl rfl)
  have closedUpper := Value.equal_bool (fields "closed_upper" _ _ rfl rfl)
  have lower := faces_boundPiece there facing (fields "lower" _ _ rfl rfl)
  have upper := faces_boundPiece there facing (fields "upper" _ _ rfl rfl)
  rw [pieces, pieces, closedLower, closedUpper]
  exact .cons (.plain _) (.cons lower (.cons (.plain _) (.cons upper (.cons (.plain _) .nil))))

end Bounds

theorem Range.faces {r r' : Range} (equal : r.toValue.equal r'.toValue = true) :
    List.Forall₂ Piece.Faces r.pieces r'.pieces := by
  have kind : r.kind = r'.kind := by
    cases r <;> cases r' <;> exact Model.range.inj (Value.equal_object equal).1
  cases r with
  | string b =>
    cases r' with
    | string b' =>
      refine Bounds.faces (fun s => ⟨rfl, rfl⟩) (fun s t same => ?_) equal
      rw [Value.equal_str same]
      exact .plain _
    | _ => cases kind
  | number b =>
    cases r' with
    | number b' =>
      refine Bounds.faces (fun n => ?_) (fun m n same => .number (Value.equal_ofNumber same)) equal
      cases n <;> exact ⟨rfl, rfl⟩
    | _ => cases kind
  | date b =>
    cases r' with
    | date b' =>
      refine Bounds.faces (fun m => ⟨rfl, rfl⟩) (fun m m' same => ?_) equal
      rw [Value.equal_ofMoment same]
      exact .plain _
    | _ => cases kind

/-! ## Equal trees -/

namespace Node

variable {a b : Node}

theorem model_eq_of_equal (equal : a.toValue.equal b.toValue = true) : a.model = b.model := by
  obtain ⟨fs, object⟩ := a.exists_object
  obtain ⟨gs, object'⟩ := b.exists_object
  rw [object, object'] at equal
  exact (Value.equal_object equal).1

/-- Equal trees have the same pieces, up to the kinds of their numbers. -/
theorem faces (equal : a.toValue.equal b.toValue = true) :
    List.Forall₂ Piece.Faces a.pieces b.pieces := by
  have model := model_eq_of_equal equal
  induction b using Node.induction generalizing a with
  | literal l =>
    cases a with
    | literal k => exact Literal.faces equal
    | _ => cases model
  | range r =>
    cases a with
    | range r' => exact Range.faces equal
    | _ => cases model
  | term v ih =>
    cases a with
    | term u =>
      have value := (Value.equal_object equal).2 "value" _ _ rfl rfl
      exact ih (a := u) value (model_eq_of_equal value)
    | _ => cases model
  | namedTerm f v ih =>
    cases a with
    | namedTerm e u =>
      have fields := (Value.equal_object equal).2
      have field : e.text = f.text := Value.equal_str (fields "field" _ _ rfl rfl)
      have value := fields "value" _ _ rfl rfl
      rw [pieces, pieces, field]
      exact .cons (.plain _) (.cons (.plain _) (ih value (model_eq_of_equal value)))
    | _ => cases model
  | combine c ns ih =>
    cases a with
    | combine c' ms =>
      cases model
      have operands := (Value.equal_object equal).2 "operands" _ _ rfl rfl
      rw [toValues_eq, toValues_eq] at operands
      have each : List.Forall₂ (fun m n => List.Forall₂ Piece.Faces m.pieces n.pieces) ms ns :=
        forall₂_imp_mem (fun n member m equal => ih n member equal (model_eq_of_equal equal))
          (Value.equal_tuple operands)
      rw [pieces, pieces, piecesList_eq_map, piecesList_eq_map]
      have between := faces_intercalate (t := ' ' :: c.word.toList ++ [' '])
        (List.forall₂_map_left_iff.2 (List.forall₂_map_right_iff.2 each))
      exact .cons (.plain _) (List.rel_append between (.cons (.plain _) .nil))
    | _ => cases model
  | modify m n ih =>
    cases a with
    | modify m' k =>
      cases model
      have rhs := (Value.equal_object equal).2 "rhs" _ _ rfl rfl
      have inside := ih rhs (model_eq_of_equal rhs)
      cases m with
      | not => exact .cons (.plain _) (List.rel_append inside (.cons (.plain _) .nil))
      | required | prohibited => exact .cons (.plain _) inside
    | _ => cases model
  | constant n boost ih =>
    cases a with
    | constant k factor =>
      have fields := (Value.equal_object equal).2
      have lhs := fields "lhs" _ _ rfl rfl
      have rhs := Value.equal_ofNumber (fields "rhs" _ _ rfl rfl)
      have inside := ih lhs (model_eq_of_equal lhs)
      exact .cons (.plain _) (List.rel_append inside (.cons (.plain _) (.cons (.number rhs) .nil)))
    | _ => cases model

/-! ## When equal trees are one query -/

/-- The texts of equal trees are the same exactly when the numbers that face each other are written
    alike. -/
theorem text_eq_iff_of_equal (equal : a.toValue.equal b.toValue = true) :
    a.text = b.text ↔ List.Forall₂ Number.WrittenAlike a.numbers b.numbers := by
  have facing := faces equal
  obtain ⟨-, same⟩ := List.forall₂_iff_zip.1 (sameValue_of_faces facing)
  rw [← a.piecesText_pieces, ← b.piecesText_pieces,
    piecesText_eq_iff facing a.separated_pieces b.separated_pieces, List.forall₂_iff_zip,
    List.forall₂_iff_zip]
  refine and_congr_right fun _ => ⟨fun texts m n member => ?_, fun alike m n member => ?_⟩
  · exact (Number.queryText_eq_iff (same member)).1 (texts member)
  · exact (Number.queryText_eq_iff (same member)).2 (alike member)

/-- Equal well-formed trees are rendered, and the numbers that face each other in them have one
    value.  They give one query exactly when each integer that faces a binary number is below
    `10^21` and spelt by its shortest digits; so they do as long as all integers in them are within
    `2^53`. -/
theorem render_eq_iff_of_equal (equal : a.toValue.equal b.toValue = true) (formed : a.Formed)
    (formed' : b.Formed) (writable : a.writable = true) (writable' : b.writable = true) :
    a.toValue.render = .ok a.text ∧ b.toValue.render = .ok b.text ∧
      List.Forall₂ (fun m n => m.sameValue n = true) a.numbers b.numbers ∧
      (a.toValue.render = b.toValue.render ↔
        List.Forall₂ Number.WrittenAlike a.numbers b.numbers) ∧
      ((∀ k : Int, .int k ∈ a.numbers ++ b.numbers → k.natAbs ≤ 2 ^ (53 : Nat)) →
        a.toValue.render = b.toValue.render) := by
  have left := formed.render_toValue writable
  have right := formed'.render_toValue writable'
  have same := sameValue_of_faces (faces equal)
  have texts : a.toValue.render = b.toValue.render ↔
      List.Forall₂ Number.WrittenAlike a.numbers b.numbers := by
    rw [left, right, Except.ok.injEq, text_eq_iff_of_equal equal]
  refine ⟨left, right, same, texts, fun small => texts.2 ?_⟩
  obtain ⟨length, each⟩ := List.forall₂_iff_zip.1 same
  refine List.forall₂_iff_zip.2 ⟨length, fun {m n} member => ?_⟩
  obtain ⟨first, second⟩ := List.of_mem_zip member
  refine .of_exact (each member) fun k integer => small k (List.mem_append.2 ?_)
  rcases integer with rfl | rfl
  · exact .inl first
  · exact .inr second

theorem n_ne_empty : "n" ≠ "" := by decide

/-- The integers from one to `2^53`. -/
def exactBounds : Node :=
  .namedTerm ⟨"n", n_ne_empty⟩
    (.range (.number ⟨true, true, .between (.int 1) (.int (2 ^ (53 : Nat)))⟩))

/-- The same bounds as binary numbers. -/
def binaryBounds : Node :=
  .namedTerm ⟨"n", n_ne_empty⟩ (.range (.number ⟨true, true, .between
    (.float ⟨false, 2 ^ (52 : Nat), -52, by decide⟩)
    (.float ⟨false, 2 ^ (52 : Nat), 1, by decide⟩)⟩))

theorem render_exactBounds :
    exactBounds.toValue.equal binaryBounds.toValue = true ∧
      (exactBounds.Formed ∧ binaryBounds.Formed) ∧
      (exactBounds.writable = true ∧ binaryBounds.writable = true) ∧
      exactBounds.toValue.render = binaryBounds.toValue.render := by
  have equal : exactBounds.toValue.equal binaryBounds.toValue = true := by decide +kernel
  have formed : exactBounds.Formed ∧ binaryBounds.Formed :=
    ⟨formed_iff.2 (by decide), formed_iff.2 (by decide)⟩
  have writable : exactBounds.writable = true ∧ binaryBounds.writable = true := by decide +kernel
  obtain ⟨-, -, -, -, small⟩ :=
    render_eq_iff_of_equal equal formed.1 formed.2 writable.1 writable.2
  refine ⟨equal, formed, writable, small fun k member => ?_⟩
  have integers : exactBounds.numbers ++ binaryBounds.numbers =
      [.int 1, .int (2 ^ (53 : Nat)), .float ⟨false, 2 ^ (52 : Nat), -52, by decide⟩,
        .float ⟨false, 2 ^ (52 : Nat), 1, by decide⟩] := rfl
  rw [integers] at member
  simp only [List.mem_cons, Number.int.injEq, reduceCtorEq, List.not_mem_nil, or_false] at member
  rcases member with rfl | rfl <;> decide

/-- `10^21`, as an integer. -/
def bigInteger : Node :=
  .literal (.number (.int (10 ^ (21 : Nat))))

/-- `10^21`, as a binary number. -/
def bigBinary : Node :=
  .literal (.number (.float ⟨false, 7629394531250000, 17, by decide⟩))

/-- From `10^21` on, equal trees need not be one query. -/
theorem render_bigInteger_ne :
    bigInteger.toValue.equal bigBinary.toValue = true ∧
      (bigInteger.Formed ∧ bigBinary.Formed) ∧
      (bigInteger.writable = true ∧ bigBinary.writable = true) ∧
      bigInteger.toValue.render = .ok "1000000000000000000000".toList ∧
      bigBinary.toValue.render = .ok "1e+21".toList ∧
      bigInteger.toValue.render ≠ bigBinary.toValue.render := by
  have equal : bigInteger.toValue.equal bigBinary.toValue = true := by decide +kernel
  have formed : bigInteger.Formed ∧ bigBinary.Formed :=
    ⟨formed_iff.2 (by decide), formed_iff.2 (by decide)⟩
  have writable : bigInteger.writable = true ∧ bigBinary.writable = true := by decide +kernel
  have left : bigInteger.toValue.render = .ok "1000000000000000000000".toList := by
    rw [formed.1.render_toValue writable.1]
    exact congrArg Except.ok (by decide +kernel)
  have right : bigBinary.toValue.render = .ok "1e+21".toList := by
    rw [formed.2.render_toValue writable.2]
    exact congrArg Except.ok (by decide +kernel)
  refine ⟨equal, formed, writable, left, right, fun same => ?_⟩
  rw [left, right] at same
  cases same

end Node

end QueryTree
