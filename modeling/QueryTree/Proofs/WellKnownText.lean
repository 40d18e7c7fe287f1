import QueryTree.Proofs.Equality.Pieces
import QueryTree.Proofs.Rendering

/-!
# The text of a geometry determines it

Two geometries share a well-known text only if they are of one class, hold their positions in the
same groups, and write the same text for each coordinate.  Every part of the text is found again
before whatever stands behind it: a number ends where a character comes that no number has, and
everything else is in brackets.

* `Position.Alike`, `Geometry.Alike` : one shape, and one text for each coordinate
* `SplitsOff`             : what is written is found again before what may follow
* `intercalate_splitsOff`, `commas_delimited` : members between separators
* `Geometry.wkt_eq_iff`   : which geometries share a text
* `Value.geometryText_eq_iff` : the same for whatever is read as a geometry
-/

namespace QueryTree

/-! ## Geometries alike -/

/-- Positions of one dimension whose coordinates have the same texts. -/
def Position.Alike (p q : Position) : Prop :=
  List.Forall₂ (fun m n => m.queryText = n.queryText) p.toList q.toList

/-- Lists of positions that are alike one by one. -/
abbrev PositionsAlike : List Position → List Position → Prop :=
  List.Forall₂ Position.Alike

/-- Lists of rings that are alike one by one. -/
abbrev RingsAlike : List Ring → List Ring → Prop :=
  List.Forall₂ fun r s => PositionsAlike r.toList s.toList

/-- Geometries of one class with the same nesting of lists, and with the same text for each pair of
    facing coordinates. -/
inductive Geometry.Alike : Geometry → Geometry → Prop where
  | point {p q : Position} (positions : p.Alike q) : Alike (.point p) (.point q)
  | multiPoint {ps qs : NonEmpty Position} (positions : PositionsAlike ps.toList qs.toList) :
      Alike (.multiPoint ps) (.multiPoint qs)
  | lineString {l k : Line} (positions : PositionsAlike l.toList k.toList) :
      Alike (.lineString l) (.lineString k)
  | multiLineString {ls ks : NonEmpty Line}
      (lines : List.Forall₂ (fun l k => PositionsAlike l.toList k.toList) ls.toList ks.toList) :
      Alike (.multiLineString ls) (.multiLineString ks)
  | polygon {rs ss : NonEmpty Ring} (rings : RingsAlike rs.toList ss.toList) :
      Alike (.polygon rs) (.polygon ss)
  | multiPolygon {ps qs : NonEmpty (NonEmpty Ring)}
      (polygons : List.Forall₂ (fun p q => RingsAlike p.toList q.toList) ps.toList qs.toList) :
      Alike (.multiPolygon ps) (.multiPolygon qs)
  | collection {g h : Geometry} {gs hs : List Geometry}
      (members : List.Forall₂ Alike (g :: gs) (h :: hs)) :
      Alike (.collection g gs) (.collection h hs)

/-! ## Parts of a text -/

/-- A text that ends, or goes on with one of some characters. -/
def GoesOnWith (ends : List Char) (t : List Char) : Prop :=
  ∀ c ∈ t.head?, c ∈ ends

theorem goesOnWith_cons {ends : List Char} {c : Char} (known : c ∈ ends) (t : List Char) :
    GoesOnWith ends (c :: t) := by
  rintro d ⟨⟩
  exact known

theorem GoesOnWith.mono {ends ends' : List Char} {t : List Char} (goesOn : GoesOnWith ends t)
    (within : ends ⊆ ends') : GoesOnWith ends' t :=
  fun c first => within (goesOn c first)

section Splitting

variable {α : Type} {behind : List Char → Prop} {write : α → List Char} {alike : α → α → Prop}

/-- What is written of `x` is found again before texts that may stand behind it: a text that starts
    in the same way starts with something alike, and goes on in the same way. -/
def SplitsOff (behind : List Char → Prop) (write : α → List Char) (alike : α → α → Prop) (x : α) :
    Prop :=
  ∀ ⦃y : α⦄ ⦃t t' : List Char⦄, behind t → behind t' → write x ++ t = write y ++ t' →
    alike x y ∧ t = t'

/-- What is written of `x` is found again before anything. -/
def Delimited (write : α → List Char) (alike : α → α → Prop) (x : α) : Prop :=
  ∀ ⦃y : α⦄ ⦃t t' : List Char⦄, write x ++ t = write y ++ t' → alike x y ∧ t = t'

theorem Delimited.splitsOff {x : α} (delimited : Delimited write alike x) :
    SplitsOff behind write alike x :=
  fun _ _ _ _ _ same => delimited same

theorem intercalate_cons (sep : Char) (part : List Char) (parts : List (List Char)) :
    List.intercalate [sep] (part :: parts) = part ++ parts.flatMap (sep :: ·) := by
  induction parts generalizing part with
  | nil => simp [List.intercalate]
  | cons next parts ih => simp [List.intercalate_cons_cons, ih]

/-- Behind a member stands the next separator, or what stands behind all members. -/
theorem goesOnWith_flatMap {sep : Char} {ends t : List Char} (follows : GoesOnWith ends t)
    (parts : List (List Char)) : GoesOnWith (sep :: ends) (parts.flatMap (sep :: ·) ++ t) := by
  cases parts with
  | nil => exact follows.mono (List.subset_cons_self sep ends)
  | cons part parts => exact goesOnWith_cons (.head _) _

section Separator

variable {sep : Char} {ends t t' : List Char} {xs ys : List α} (fresh : sep ∉ ends)
  (each : ∀ x ∈ xs, SplitsOff (GoesOnWith (sep :: ends)) write alike x)
  (follows : GoesOnWith ends t) (follows' : GoesOnWith ends t')

include fresh each follows follows'

theorem flatMap_splitsOff
    (same : (xs.map write).flatMap (sep :: ·) ++ t = (ys.map write).flatMap (sep :: ·) ++ t') :
    List.Forall₂ alike xs ys ∧ t = t' := by
  induction xs generalizing ys with
  | nil =>
    cases ys with
    | nil => exact ⟨.nil, same⟩
    | cons y ys =>
      have next : t = sep :: _ := same
      exact absurd (follows sep (by rw [next]; rfl)) fresh
  | cons x xs ih =>
    cases ys with
    | nil =>
      have next : sep :: _ = t' := same
      exact absurd (follows' sep (by rw [← next]; rfl)) fresh
    | cons y ys =>
      simp only [List.map_cons, List.flatMap_cons, List.cons_append, List.append_assoc,
        List.cons.injEq, true_and] at same
      obtain ⟨facing, rest⟩ := each x (.head _) (goesOnWith_flatMap follows _)
        (goesOnWith_flatMap follows' _) same
      obtain ⟨others, rest⟩ := ih (fun z member => each z (.tail _ member)) rest
      exact ⟨.cons facing others, rest⟩

/-- Members are found again if none can go on over the separator between them. -/
theorem intercalate_splitsOff (some : xs ≠ []) (some' : ys ≠ [])
    (same : List.intercalate [sep] (xs.map write) ++ t =
      List.intercalate [sep] (ys.map write) ++ t') :
    List.Forall₂ alike xs ys ∧ t = t' := by
  obtain ⟨x, xs, rfl⟩ := List.exists_cons_of_ne_nil some
  obtain ⟨y, ys, rfl⟩ := List.exists_cons_of_ne_nil some'
  rw [List.map_cons, List.map_cons, intercalate_cons, intercalate_cons, List.append_assoc,
    List.append_assoc] at same
  obtain ⟨facing, rest⟩ := each x (.head _) (goesOnWith_flatMap follows _)
    (goesOnWith_flatMap follows' _) same
  obtain ⟨others, rest⟩ := flatMap_splitsOff fresh (fun z member => each z (.tail _ member))
    follows follows' rest
  exact ⟨.cons facing others, rest⟩

end Separator

/-- Members in brackets are found again before anything. -/
theorem commas_delimited {xs ys : List α} {t t' : List Char}
    (each : ∀ x ∈ xs, SplitsOff (GoesOnWith [',', ')']) write alike x)
    (some : xs ≠ []) (some' : ys ≠ [])
    (same : commas (xs.map write) ++ t = commas (ys.map write) ++ t') :
    List.Forall₂ alike xs ys ∧ t = t' := by
  simp only [commas, List.cons_append, List.append_assoc, List.nil_append, List.cons.injEq,
    true_and] at same
  obtain ⟨facing, rest⟩ := intercalate_splitsOff (by decide) each
    (goesOnWith_cons (.head _) t) (goesOnWith_cons (.head _) t') some some' same
  exact ⟨facing, (List.cons.inj rest).2⟩

/-- Facing members that are written in the same way make up the same list of texts. -/
theorem map_eq_of_forall₂ {xs ys : List α} (all : List.Forall₂ alike xs ys)
    (each : ∀ x ∈ xs, ∀ y, alike x y → write x = write y) : xs.map write = ys.map write := by
  induction all with
  | nil => rfl
  | cons facing _ ih =>
    rw [List.map_cons, List.map_cons, each _ (.head _) _ facing,
      ih fun x member => each x (.tail _ member)]

end Splitting

/-! ## Coordinates and positions -/

theorem NonEmpty.toList_ne_nil {α : Type} (xs : NonEmpty α) : xs.toList ≠ [] :=
  List.cons_ne_nil _ _

theorem Line.toList_ne_nil (l : Line) : l.toList ≠ [] :=
  List.cons_ne_nil _ _

theorem Position.toList_ne_nil (p : Position) : p.toList ≠ [] := by
  cases p <;> exact List.cons_ne_nil _ _

theorem Number.splitsOff (n : Number) :
    SplitsOff (GoesOnWith [' ', ',', ')']) queryText (fun m n => m.queryText = n.queryText) n := by
  intro m t t' follows follows' same
  have within : [' ', ',', ')'] ⊆ enders := by decide
  exact append_stops_inj (fun _ => numeralChar_of_mem_queryText)
    (fun _ => numeralChar_of_mem_queryText) (follows.mono within) (follows'.mono within) same

namespace Position

theorem splitsOff (p : Position) : SplitsOff (GoesOnWith [',', ')']) wkt Alike p :=
  fun q _ _ follows follows' same =>
    intercalate_splitsOff (by decide) (fun n _ => n.splitsOff) follows follows' p.toList_ne_nil
      q.toList_ne_nil same

theorem Alike.wkt_eq {p q : Position} (alike : p.Alike q) : p.wkt = q.wkt :=
  congrArg (List.intercalate [' ']) (map_eq_of_forall₂ alike fun _ _ _ same => same)

end Position

/-! ## Lists of positions and rings -/

/-- A position in brackets of its own. -/
theorem Position.bracketed_delimited (p : Position) :
    Delimited (fun p => commas [p.wkt]) Alike p := by
  intro q t t' same
  have same : commas ([p].map wkt) ++ t = commas ([q].map wkt) ++ t' := same
  obtain ⟨facing, rest⟩ := commas_delimited (fun p _ => p.splitsOff) (List.cons_ne_nil _ _)
    (List.cons_ne_nil _ _) same
  exact ⟨(List.forall₂_cons.1 facing).1, rest⟩

theorem Line.delimited (l : Line) :
    Delimited (fun l : Line => positionsWkt l.toList)
      (fun l k => PositionsAlike l.toList k.toList) l :=
  fun k _ _ same =>
    commas_delimited (fun p _ => p.splitsOff) l.toList_ne_nil k.toList_ne_nil same

theorem Ring.delimited (r : Ring) :
    Delimited (fun r : Ring => positionsWkt r.toList)
      (fun r s => PositionsAlike r.toList s.toList) r :=
  fun s _ _ same =>
    commas_delimited (fun p _ => p.splitsOff) r.toList_ne_nil s.toList_ne_nil same

theorem rings_delimited (rs : NonEmpty Ring) :
    Delimited (fun rs : NonEmpty Ring => ringsWkt rs.toList)
      (fun rs ss => RingsAlike rs.toList ss.toList) rs :=
  fun ss _ _ same =>
    commas_delimited (fun r _ => (Ring.delimited r).splitsOff) rs.toList_ne_nil ss.toList_ne_nil same

/-! ## Geometries -/

/-- The name of a class in capitals, as it stands before the brackets. -/
def Shape.keyword : Shape → List Char
  | .point => "POINT".toList
  | .multiPoint => "MULTIPOINT".toList
  | .lineString => "LINESTRING".toList
  | .multiLineString => "MULTILINESTRING".toList
  | .polygon => "POLYGON".toList
  | .multiPolygon => "MULTIPOLYGON".toList
  | .collection => "GEOMETRYCOLLECTION".toList

theorem Shape.keyword_injective {s s' : Shape} (same : s.keyword = s'.keyword) : s = s' := by
  revert same
  cases s <;> cases s' <;> decide

/-- No bracket stands in a name. -/
theorem Shape.takeWhile_keyword (s : Shape) (rest : List Char) :
    (s.keyword ++ '(' :: rest).takeWhile (· != '(') = s.keyword := by
  have other : s.keyword.all (· != '(') = true := by cases s <;> decide
  rw [List.takeWhile_append_of_pos (List.all_eq_true.1 other)]
  simp

namespace Geometry

/-- The texts in the brackets of a geometry. -/
def members : Geometry → List (List Char)
  | .point p => [p.wkt]
  | .multiPoint ps => ps.toList.map fun p => commas [p.wkt]
  | .lineString l => l.toList.map Position.wkt
  | .multiLineString ls => ls.toList.map fun l => positionsWkt l.toList
  | .polygon rs => rs.toList.map fun r => positionsWkt r.toList
  | .multiPolygon ps => ps.toList.map fun rs => ringsWkt rs.toList
  | .collection g gs => (g :: gs).map wkt

theorem wkt_eq (g : Geometry) : g.wkt = g.shape.keyword ++ commas g.members := by
  cases g with
  | collection g gs =>
    show Shape.collection.keyword ++ commas (g.wkt :: wktList gs) = _
    rw [wktList_eq_map]
    rfl
  | _ => rfl

/-- Texts of geometries that start in the same way are of one class. -/
theorem shape_eq_of_wkt {g h : Geometry} {t t' : List Char} (same : g.wkt ++ t = h.wkt ++ t') :
    g.shape = h.shape ∧ commas g.members ++ t = commas h.members ++ t' := by
  rw [wkt_eq, wkt_eq, List.append_assoc, List.append_assoc] at same
  have shapes : g.shape = h.shape := by
    have starts := congrArg (List.takeWhile (· != '(')) same
    simp only [commas, List.cons_append, Shape.takeWhile_keyword] at starts
    exact Shape.keyword_injective starts
  rw [shapes] at same
  exact ⟨shapes, List.append_cancel_left same⟩

/-- The text of a geometry is found again before anything. -/
theorem delimited (g : Geometry) : Delimited wkt Alike g := by
  induction g using Geometry.induction with
  | plain g plain =>
    intro h t t' same
    obtain ⟨shapes, same⟩ := shape_eq_of_wkt same
    cases g with
    | collection => exact absurd rfl plain
    | point p =>
      cases h with
      | point q =>
        obtain ⟨positions, rest⟩ := p.bracketed_delimited same
        exact ⟨.point positions, rest⟩
      | _ => cases shapes
    | multiPoint ps =>
      cases h with
      | multiPoint qs =>
        obtain ⟨positions, rest⟩ := commas_delimited (fun p _ => p.bracketed_delimited.splitsOff)
          ps.toList_ne_nil qs.toList_ne_nil same
        exact ⟨.multiPoint positions, rest⟩
      | _ => cases shapes
    | lineString l =>
      cases h with
      | lineString k =>
        obtain ⟨positions, rest⟩ := l.delimited same
        exact ⟨.lineString positions, rest⟩
      | _ => cases shapes
    | multiLineString ls =>
      cases h with
      | multiLineString ks =>
        obtain ⟨lines, rest⟩ := commas_delimited (fun l _ => l.delimited.splitsOff)
          ls.toList_ne_nil ks.toList_ne_nil same
        exact ⟨.multiLineString lines, rest⟩
      | _ => cases shapes
    | polygon rs =>
      cases h with
      | polygon ss =>
        obtain ⟨rings, rest⟩ := rings_delimited rs same
        exact ⟨.polygon rings, rest⟩
      | _ => cases shapes
    | multiPolygon ps =>
      cases h with
      | multiPolygon qs =>
        obtain ⟨polygons, rest⟩ := commas_delimited (fun rs _ => (rings_delimited rs).splitsOff)
          ps.toList_ne_nil qs.toList_ne_nil same
        exact ⟨.multiPolygon polygons, rest⟩
      | _ => cases shapes
  | collection g gs ih =>
    intro h t t' same
    obtain ⟨shapes, same⟩ := shape_eq_of_wkt same
    cases h with
    | collection h hs =>
      obtain ⟨members, rest⟩ := commas_delimited (fun g member => (ih g member).splitsOff)
        (List.cons_ne_nil _ _) (List.cons_ne_nil _ _) same
      exact ⟨.collection members, rest⟩
    | _ => cases shapes

end Geometry

theorem PositionsAlike.map_wkt {ps qs : List Position} (alike : PositionsAlike ps qs) :
    ps.map Position.wkt = qs.map Position.wkt :=
  map_eq_of_forall₂ alike fun _ _ _ facing => facing.wkt_eq

theorem PositionsAlike.wkt_eq {ps qs : List Position} (alike : PositionsAlike ps qs) :
    positionsWkt ps = positionsWkt qs :=
  congrArg commas alike.map_wkt

theorem RingsAlike.wkt_eq {rs ss : List Ring} (alike : RingsAlike rs ss) :
    ringsWkt rs = ringsWkt ss :=
  congrArg commas (map_eq_of_forall₂ alike fun _ _ _ facing => PositionsAlike.wkt_eq facing)

namespace Geometry

/-- Geometries that are alike have one class and the same texts in their brackets. -/
theorem Alike.members_eq {g h : Geometry} (alike : g.Alike h) :
    g.shape = h.shape ∧ g.members = h.members := by
  induction g using Geometry.induction generalizing h with
  | plain g plain =>
    cases alike with
    | point facing => exact ⟨rfl, congrArg ([·]) facing.wkt_eq⟩
    | multiPoint positions =>
      exact ⟨rfl, map_eq_of_forall₂ positions fun _ _ _ facing =>
        congrArg (fun t => commas [t]) facing.wkt_eq⟩
    | lineString positions => exact ⟨rfl, PositionsAlike.map_wkt positions⟩
    | multiLineString lines =>
      exact ⟨rfl, map_eq_of_forall₂ lines fun _ _ _ facing => PositionsAlike.wkt_eq facing⟩
    | polygon rings =>
      exact ⟨rfl, map_eq_of_forall₂ rings fun _ _ _ facing => PositionsAlike.wkt_eq facing⟩
    | multiPolygon polygons =>
      exact ⟨rfl, map_eq_of_forall₂ polygons fun _ _ _ facing => RingsAlike.wkt_eq facing⟩
    | collection => exact absurd rfl plain
  | collection g gs ih =>
    cases alike with
    | collection facing =>
      refine ⟨rfl, map_eq_of_forall₂ facing fun member inside other alike => ?_⟩
      obtain ⟨shapes, texts⟩ := ih member inside alike
      rw [wkt_eq, wkt_eq, shapes, texts]

/-- Two geometries have one text exactly when they are alike. -/
theorem wkt_eq_iff {g h : Geometry} : g.wkt = h.wkt ↔ g.Alike h := by
  constructor
  · intro same
    exact (g.delimited (congrArg (· ++ []) same)).1
  · intro alike
    obtain ⟨shapes, texts⟩ := alike.members_eq
    rw [wkt_eq, wkt_eq, shapes, texts]

end Geometry

section Texts

variable {v w : Value} {g h : Geometry}

/-- Whatever is read as a geometry is written, and two such values are written alike exactly when
    their geometries are of one class, nest their positions in the same way, and have the same text
    for each coordinate. -/
theorem Value.geometryText_eq_iff (read : Geometry.decode v = .done g)
    (read' : Geometry.decode w = .done h) (writable : g.writable = true)
    (writable' : h.writable = true) :
    v.geometryText = .ok g.wkt ∧ w.geometryText = .ok h.wkt ∧
      (v.geometryText = w.geometryText ↔ g.Alike h) := by
  have left : v.geometryText = .ok g.wkt := by
    rw [geometryText_decode read, writable]
    rfl
  have right : w.geometryText = .ok h.wkt := by
    rw [geometryText_decode read', writable']
    rfl
  refine ⟨left, right, ?_⟩
  rw [left, right, Except.ok.injEq, Geometry.wkt_eq_iff]

end Texts

/-- A collection of a point and a line that rises, with integers for coordinates. -/
def exactCollection : Geometry :=
  .collection (.point (.flat (.int 1) (.int 2)))
    [.lineString ⟨.flat (.int 1) (.int 2), .raised (.int 0) (.int 0) (.int 2), []⟩]

/-- The same collection, with a binary number for the one at the end of the line. -/
def binaryCollection : Geometry :=
  .collection (.point (.flat (.int 1) (.int 2)))
    [.lineString ⟨.flat (.int 1) (.int 2),
      .raised (.int 0) (.int 0) (.float ⟨false, 2 ^ (52 : Nat), -51, by decide⟩), []⟩]

theorem geometryText_exactCollection :
    (exactCollection.Formed ∧ binaryCollection.Formed) ∧
      (exactCollection.writable = true ∧ binaryCollection.writable = true) ∧
      exactCollection.toValue.geometryText = binaryCollection.toValue.geometryText ∧
      exactCollection.Alike binaryCollection := by
  have writable : exactCollection.writable = true ∧ binaryCollection.writable = true := by
    decide +kernel
  have formed : exactCollection.Formed ∧ binaryCollection.Formed :=
    ⟨Geometry.formed_iff.2 (by decide), Geometry.formed_iff.2 (by decide)⟩
  obtain ⟨left, right, texts⟩ := Value.geometryText_eq_iff formed.1.decode_toValue
    formed.2.decode_toValue writable.1 writable.2
  have same : exactCollection.wkt = binaryCollection.wkt := by decide +kernel
  have text : exactCollection.toValue.geometryText = binaryCollection.toValue.geometryText := by
    rw [left, right, same]
  exact ⟨formed, writable, text, texts.1 text⟩

end QueryTree
