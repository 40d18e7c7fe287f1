import QueryTree.Node.Text
import QueryTree.Proofs.Induction
import QueryTree.Proofs.NumberText

/-!
# Texts in pieces

The text of a tree as a sequence of pieces: the numbers of the tree, and the fixed characters
between them.  Behind a number stands a character that no number has, so the texts of the numbers
are found in the text of the tree.

* `Piece`, `piecesText`      : pieces and their text
* `Node.pieces`              : the pieces of a tree
* `Node.piecesText_pieces`   : their text is the text of the tree
* `Node.separated_pieces`    : the numbers of a tree are kept apart
* `Piece.Faces`              : pieces that differ in the kind of a number only
* `piecesText_eq_iff`        : when facing pieces have one text
-/

namespace QueryTree

/-! ## Pieces -/

/-- A piece of a text. -/
inductive Piece where
  | plain (text : List Char)
  | number (n : Number)

namespace Piece

def text : Piece → List Char
  | plain t => t
  | number n => n.queryText

@[simp] theorem text_plain (t : List Char) : (plain t).text = t := rfl

@[simp] theorem text_number (n : Number) : (number n).text = n.queryText := rfl

def number? : Piece → Option Number
  | plain _ => none
  | number n => some n

/-- A piece inside quotes; the texts of numbers need no escapes. -/
def quoted : Piece → Piece
  | plain t => plain (Text.escape Text.isQuotedSpecial t)
  | number n => number n

end Piece

def piecesText (ps : List Piece) : List Char :=
  ps.flatMap Piece.text

@[simp] theorem piecesText_nil : piecesText [] = [] := rfl

@[simp] theorem piecesText_cons (p : Piece) (ps : List Piece) :
    piecesText (p :: ps) = p.text ++ piecesText ps := rfl

@[simp] theorem piecesText_append (ps qs : List Piece) :
    piecesText (ps ++ qs) = piecesText ps ++ piecesText qs :=
  List.flatMap_append

theorem piecesText_intercalate (t : List Char) (parts : List (List Piece)) :
    piecesText (List.intercalate [.plain t] parts) =
      List.intercalate t (parts.map piecesText) := by
  induction parts with
  | nil => rfl
  | cons first rest ih =>
    cases rest with
    | nil => simp [List.intercalate]
    | cons second rest =>
      rw [List.intercalate_cons_cons, List.map_cons, List.map_cons, List.intercalate_cons_cons,
        piecesText_append, piecesText_append, ih]
      simp

theorem escape_append (special : Char → Bool) (cs ds : List Char) :
    Text.escape special (cs ++ ds) = Text.escape special cs ++ Text.escape special ds := by
  induction cs with
  | nil => rfl
  | cons c cs ih =>
    rw [List.cons_append, Text.escape, Text.escape, ih]
    split <;> rfl

theorem escape_queryText (n : Number) :
    Text.escape Text.isQuotedSpecial n.queryText = n.queryText := by
  have plain : ∀ c ∈ n.queryText, Text.isQuotedSpecial c = false := by
    intro c member
    have other : c ∉ ['"', '\\'] :=
      notMem_of_digit_or_sign (Number.numeralChar_of_mem_queryText member) (by decide)
    simpa [Text.isQuotedSpecial] using other
  generalize n.queryText = t at plain
  induction t with
  | nil => rfl
  | cons c t ih =>
    rw [Text.escape, plain c (.head _), ih fun d member => plain d (.tail _ member)]
    rfl

theorem piecesText_quoted (ps : List Piece) :
    piecesText (ps.map Piece.quoted) = Text.escape Text.isQuotedSpecial (piecesText ps) := by
  induction ps with
  | nil => rfl
  | cons p ps ih =>
    rw [List.map_cons, piecesText_cons, piecesText_cons, escape_append, ih]
    cases p with
    | plain t => rfl
    | number n => rw [Piece.text, escape_queryText]; rfl

/-! ## Geometries in pieces -/

def commaPieces (parts : List (List Piece)) : List Piece :=
  .plain ['('] :: List.intercalate [.plain [',']] parts ++ [.plain [')']]

def Position.pieces (p : Position) : List Piece :=
  List.intercalate [.plain [' ']] (p.toList.map fun n => [.number n])

def positionsPieces (ps : List Position) : List Piece :=
  commaPieces (ps.map Position.pieces)

def ringsPieces (rings : List Ring) : List Piece :=
  commaPieces (rings.map fun r => positionsPieces r.toList)

namespace Geometry

mutual

def pieces : Geometry → List Piece
  | .point p => .plain "POINT".toList :: commaPieces [p.pieces]
  | .multiPoint ps =>
    .plain "MULTIPOINT".toList :: commaPieces (ps.toList.map fun p => commaPieces [p.pieces])
  | .lineString l => .plain "LINESTRING".toList :: positionsPieces l.toList
  | .multiLineString ls =>
    .plain "MULTILINESTRING".toList :: commaPieces (ls.toList.map fun l => positionsPieces l.toList)
  | .polygon rs => .plain "POLYGON".toList :: ringsPieces rs.toList
  | .multiPolygon ps =>
    .plain "MULTIPOLYGON".toList :: commaPieces (ps.toList.map fun rs => ringsPieces rs.toList)
  | .collection g gs =>
    .plain "GEOMETRYCOLLECTION".toList :: commaPieces (g.pieces :: piecesList gs)

def piecesList : List Geometry → List (List Piece)
  | [] => []
  | g :: gs => g.pieces :: piecesList gs

end

end Geometry

def SpatialPredicate.pieces (p : SpatialPredicate) : List Piece :=
  .plain p.op.name.toList :: commaPieces [p.geom.pieces]

/-! ## Trees in pieces -/

def Literal.pieces : Literal → List Piece
  | .number n => [.number n]
  | .spatial p => .plain ['"'] :: p.pieces.map Piece.quoted ++ [.plain ['"']]
  | l => [.plain l.text]

section Bounds

variable {α : Type} (inPiece : α → Piece)

def boundPiece (bound : Option α) : Piece :=
  (bound.map inPiece).getD (.plain wildcard)

def Bounds.pieces (b : Bounds α) : List Piece :=
  [.plain [if b.closedLower then '[' else '\x7b'], boundPiece inPiece b.span.lower?,
    .plain " TO ".toList, boundPiece inPiece b.span.upper?,
    .plain [if b.closedUpper then ']' else '\x7d']]

end Bounds

def Range.pieces : Range → List Piece
  | .string b => b.pieces fun s => .plain (Text.quote s.toList)
  | .number b => b.pieces .number
  | .date b => b.pieces fun m => .plain m.queryText

def Modifier.pieces (m : Modifier) (rhs : List Piece) : List Piece :=
  match m with
  | .not => .plain "(NOT ".toList :: rhs ++ [.plain [')']]
  | .required => .plain ['+'] :: rhs
  | .prohibited => .plain ['-'] :: rhs

namespace Node

mutual

def pieces : Node → List Piece
  | .literal l => l.pieces
  | .range r => r.pieces
  | .term v => v.pieces
  | .namedTerm f v => .plain f.text.toList :: .plain [':'] :: v.pieces
  | .combine c ns =>
    .plain ['('] :: List.intercalate [.plain (' ' :: c.word.toList ++ [' '])] (piecesList ns) ++
      [.plain [')']]
  | .modify m n => m.pieces n.pieces
  | .constant n boost =>
    .plain ['('] :: n.pieces ++ [.plain ")^=".toList, .number boost]

def piecesList : List Node → List (List Piece)
  | [] => []
  | n :: ns => n.pieces :: piecesList ns

end

/-- The numbers of a tree, in the order of its text. -/
def numbers (n : Node) : List Number :=
  n.pieces.filterMap Piece.number?

end Node

/-! ## The text of the pieces -/

theorem piecesText_commaPieces (parts : List (List Piece)) :
    piecesText (commaPieces parts) = commas (parts.map piecesText) := by
  simp [commaPieces, commas, piecesText_intercalate]

/-- Members in pieces between brackets have their texts between brackets. -/
theorem piecesText_members {α : Type} {inPieces : α → List Piece} {write : α → List Char}
    {xs : List α}
    (each : ∀ x ∈ xs, piecesText (inPieces x) = write x) :
    piecesText (commaPieces (xs.map inPieces)) = commas (xs.map write) := by
  rw [piecesText_commaPieces, List.map_map]
  exact congrArg commas (List.map_congr_left each)

theorem Position.piecesText_pieces (p : Position) : piecesText p.pieces = p.wkt := by
  rw [pieces, piecesText_intercalate, List.map_map, wkt]
  congr 1
  refine List.map_congr_left fun n _ => ?_
  simp

theorem piecesText_positionsPieces (ps : List Position) :
    piecesText (positionsPieces ps) = positionsWkt ps :=
  piecesText_members fun p _ => p.piecesText_pieces

theorem piecesText_ringsPieces (rings : List Ring) :
    piecesText (ringsPieces rings) = ringsWkt rings :=
  piecesText_members fun r _ => piecesText_positionsPieces r.toList

namespace Geometry

theorem piecesList_eq_map (gs : List Geometry) : piecesList gs = gs.map pieces := by
  induction gs with
  | nil => rfl
  | cons g gs ih => rw [piecesList, ih, List.map_cons]

theorem piecesText_pieces (g : Geometry) : piecesText g.pieces = g.wkt := by
  have single (p : Position) : piecesText (commaPieces [p.pieces]) = commas [p.wkt] := by
    rw [piecesText_commaPieces, List.map_singleton, p.piecesText_pieces]
  induction g using Geometry.induction with
  | plain g plain =>
    cases g with
    | collection => exact absurd rfl plain
    | point p => exact congrArg ("POINT".toList ++ ·) (single p)
    | multiPoint ps =>
      exact congrArg ("MULTIPOINT".toList ++ ·) (piecesText_members fun p _ => single p)
    | lineString l =>
      exact congrArg ("LINESTRING".toList ++ ·) (piecesText_positionsPieces l.toList)
    | multiLineString ls =>
      exact congrArg ("MULTILINESTRING".toList ++ ·)
        (piecesText_members fun l _ => piecesText_positionsPieces l.toList)
    | polygon rs => exact congrArg ("POLYGON".toList ++ ·) (piecesText_ringsPieces rs.toList)
    | multiPolygon ps =>
      exact congrArg ("MULTIPOLYGON".toList ++ ·)
        (piecesText_members fun rs _ => piecesText_ringsPieces rs.toList)
  | collection g gs ih =>
    show "GEOMETRYCOLLECTION".toList ++ piecesText (commaPieces (g.pieces :: piecesList gs)) =
      "GEOMETRYCOLLECTION".toList ++ commas (g.wkt :: wktList gs)
    rw [piecesList_eq_map, wktList_eq_map, ← List.map_cons, piecesText_members ih, List.map_cons]

end Geometry

theorem SpatialPredicate.piecesText_pieces (p : SpatialPredicate) :
    piecesText p.pieces = p.text := by
  rw [pieces, piecesText_cons, piecesText_commaPieces, List.map_singleton,
    p.geom.piecesText_pieces]
  rfl

theorem Literal.piecesText_pieces (l : Literal) : piecesText l.pieces = l.text := by
  cases l with
  | spatial p =>
    simp [pieces, text, Text.quote, piecesText_quoted, p.piecesText_pieces]
  | _ => simp [pieces, text]

theorem Bounds.piecesText_pieces {α : Type} {inPiece : α → Piece} {write : α → List Char}
    (each : ∀ a, (inPiece a).text = write a) (b : Bounds α) :
    piecesText (b.pieces inPiece) = b.text write := by
  have bound (bound : Option α) : (boundPiece inPiece bound).text = boundText write bound := by
    cases bound with
    | none => rfl
    | some a => exact each a
  simp [pieces, text, rangeText, bound]

theorem Range.piecesText_pieces (r : Range) : piecesText r.pieces = r.text := by
  cases r with
  | string b | number b | date b => exact b.piecesText_pieces fun _ => rfl

theorem Modifier.piecesText_pieces (m : Modifier) (rhs : List Piece) :
    piecesText (m.pieces rhs) = m.text (piecesText rhs) := by
  cases m with
  | not =>
    show "(NOT ".toList ++ piecesText (rhs ++ [.plain [')']]) =
      "(NOT ".toList ++ piecesText rhs ++ [')']
    rw [piecesText_append, ← List.append_assoc]
    rfl
  | required | prohibited => rfl

namespace Node

theorem piecesList_eq_map (ns : List Node) : piecesList ns = ns.map pieces := by
  induction ns with
  | nil => rfl
  | cons n ns ih => rw [piecesList, ih, List.map_cons]

/-- The pieces of a tree make up its text. -/
theorem piecesText_pieces (n : Node) : piecesText n.pieces = n.text := by
  induction n using Node.induction with
  | literal l => exact l.piecesText_pieces
  | range r => exact r.piecesText_pieces
  | term v ih => exact ih
  | namedTerm f v ih => simp [pieces, text, fieldText, ih]
  | combine c ns ih =>
    have operands : ns.map (piecesText ∘ pieces) = ns.map text := List.map_congr_left ih
    simp [pieces, text, Connective.text, piecesText_intercalate, piecesList_eq_map, texts_eq_map,
      operands]
  | modify m n ih => rw [pieces, text, m.piecesText_pieces, ih]
  | constant n boost ih => simp [pieces, text, boostText, ih]

end Node

/-! ## Numbers are kept apart -/

/-- The characters that stand behind numbers. -/
def enders : List Char :=
  [' ', ',', ')', ']', '\x7d', '"', '\\']

/-- A text that does not go on with a number. -/
def Stops (t : List Char) : Prop :=
  ∀ c ∈ t.head?, c ∈ enders

theorem Stops.append {t t' : List Char} (first : Stops t) (second : Stops t') :
    Stops (t ++ t') := by
  cases t with
  | nil => exact second
  | cons c t => exact first

theorem Stops.escape {t : List Char} (stops : Stops t) :
    Stops (Text.escape Text.isQuotedSpecial t) := by
  cases t with
  | nil => exact stops
  | cons c t =>
    rw [Text.escape]
    split
    · rintro d ⟨⟩
      decide
    · exact stops

/-- Texts of numbers before texts that do not go on with them are found again. -/
theorem append_stops_inj {s s' t t' : List Char} (number : ∀ c ∈ s, IsNumeralChar c)
    (number' : ∀ c ∈ s', IsNumeralChar c) (stops : Stops t) (stops' : Stops t')
    (same : s ++ t = s' ++ t') : s = s' ∧ t = t' := by
  have other {c : Char} (numeral : IsNumeralChar c) : c ∉ enders :=
    notMem_of_digit_or_sign numeral (by decide)
  induction s generalizing s' with
  | nil =>
    cases s' with
    | nil => exact ⟨rfl, same⟩
    | cons c s' =>
      rw [List.nil_append] at same
      exact absurd (stops c (by rw [same]; rfl)) (other (number' c (.head _)))
  | cons c s ih =>
    cases s' with
    | nil =>
      rw [List.nil_append] at same
      exact absurd (stops' c (by rw [← same]; rfl)) (other (number c (.head _)))
    | cons c' s' =>
      simp only [List.cons_append, List.cons.injEq] at same
      obtain ⟨rfl, rest⟩ := same
      obtain ⟨rfl, behind⟩ := ih (fun d member => number d (.tail _ member))
        (fun d member => number' d (.tail _ member)) rest
      exact ⟨rfl, behind⟩

/-- Behind every number the text goes on with something else. -/
def Separated : List Piece → Prop
  | [] => True
  | .plain _ :: ps => Separated ps
  | .number _ :: ps => Stops (piecesText ps) ∧ Separated ps

namespace Separated

variable {ps qs : List Piece}

theorem append (first : Separated ps) (second : Separated qs) (stops : Stops (piecesText qs)) :
    Separated (ps ++ qs) := by
  induction ps with
  | nil => exact second
  | cons p ps ih =>
    cases p with
    | plain t => exact ih first
    | number n =>
      refine ⟨?_, ih first.2⟩
      show Stops (piecesText (ps ++ qs))
      rw [piecesText_append]
      exact first.1.append stops

theorem intercalate {c : Char} {t : List Char} {parts : List (List Piece)} (ender : c ∈ enders)
    (each : ∀ ps ∈ parts, Separated ps) : Separated (List.intercalate [.plain (c :: t)] parts) := by
  induction parts with
  | nil => trivial
  | cons first rest ih =>
    have others := ih fun ps member => each ps (.tail _ member)
    cases rest with
    | nil => simpa [List.intercalate] using each first (.head _)
    | cons second rest =>
      rw [List.intercalate_cons_cons, List.append_assoc]
      refine (each first (.head _)).append others ?_
      rintro d ⟨⟩
      exact ender

theorem quoted (separated : Separated ps) : Separated (ps.map Piece.quoted) := by
  induction ps with
  | nil => trivial
  | cons p ps ih =>
    cases p with
    | plain t => exact ih separated
    | number n =>
      refine ⟨?_, ih separated.2⟩
      rw [piecesText_quoted]
      exact separated.1.escape

end Separated

theorem stops_plain {c : Char} (ender : c ∈ enders) (t : List Char) (ps : List Piece) :
    Stops (piecesText (.plain (c :: t) :: ps)) := by
  rintro d ⟨⟩
  exact ender

theorem separated_commaPieces {parts : List (List Piece)} (each : ∀ ps ∈ parts, Separated ps) :
    Separated (commaPieces parts) := by
  have between : Separated (List.intercalate [.plain [',']] parts) := .intercalate (by decide) each
  exact Separated.append between trivial (stops_plain (by decide) _ _)

theorem separated_members {α : Type} {inPieces : α → List Piece} {xs : List α}
    (each : ∀ x ∈ xs, Separated (inPieces x)) : Separated (commaPieces (xs.map inPieces)) :=
  separated_commaPieces (List.forall_mem_map.2 each)

theorem Position.separated_pieces (p : Position) : Separated p.pieces := by
  refine .intercalate (by decide) (List.forall_mem_map.2 fun n _ => ⟨?_, trivial⟩)
  rintro c ⟨⟩

theorem separated_positionsPieces (ps : List Position) : Separated (positionsPieces ps) :=
  separated_members fun p _ => p.separated_pieces

theorem separated_ringsPieces (rings : List Ring) : Separated (ringsPieces rings) :=
  separated_members fun r _ => separated_positionsPieces r.toList

theorem Geometry.separated_pieces (g : Geometry) : Separated g.pieces := by
  have single (p : Position) : Separated (commaPieces [p.pieces]) :=
    separated_commaPieces (by simpa using p.separated_pieces)
  induction g using Geometry.induction with
  | plain g plain =>
    cases g with
    | collection => exact absurd rfl plain
    | point p => exact single p
    | multiPoint ps => exact separated_members fun p _ => single p
    | lineString l => exact separated_positionsPieces l.toList
    | multiLineString ls => exact separated_members fun l _ => separated_positionsPieces l.toList
    | polygon rs => exact separated_ringsPieces rs.toList
    | multiPolygon ps => exact separated_members fun rs _ => separated_ringsPieces rs.toList
  | collection g gs ih =>
    show Separated (commaPieces (g.pieces :: piecesList gs))
    rw [piecesList_eq_map, ← List.map_cons]
    exact separated_members ih

theorem Literal.separated_pieces (l : Literal) : Separated l.pieces := by
  cases l with
  | number n => exact ⟨by rintro c ⟨⟩, trivial⟩
  | spatial p =>
    have geometry : Separated (commaPieces [p.geom.pieces]) :=
      separated_commaPieces (by simpa using p.geom.separated_pieces)
    have text : Separated p.pieces := geometry
    exact Separated.append text.quoted trivial (stops_plain (by decide) _ _)
  | _ => trivial

theorem Bounds.separated_pieces {α : Type} (inPiece : α → Piece) (b : Bounds α) :
    Separated (b.pieces inPiece) := by
  have before {p : Piece} {ps : List Piece} (stops : Stops (piecesText ps)) (rest : Separated ps) :
      Separated (p :: ps) := by
    cases p with
    | plain t => exact rest
    | number n => exact ⟨stops, rest⟩
  have closing : Stops (piecesText [.plain [if b.closedUpper then ']' else '\x7d']]) := by
    cases b.closedUpper <;> exact stops_plain (by decide) _ _
  have upper : Separated [boundPiece inPiece b.span.upper?,
      .plain [if b.closedUpper then ']' else '\x7d']] := before closing trivial
  have lower : Separated (boundPiece inPiece b.span.lower? :: .plain " TO ".toList ::
      [boundPiece inPiece b.span.upper?, .plain [if b.closedUpper then ']' else '\x7d']]) :=
    before (stops_plain (by decide) _ _) upper
  exact lower

theorem Range.separated_pieces (r : Range) : Separated r.pieces := by
  cases r with
  | string b | number b | date b => exact b.separated_pieces _

namespace Node

theorem separated_pieces (n : Node) : Separated n.pieces := by
  induction n using Node.induction with
  | literal l => exact l.separated_pieces
  | range r => exact r.separated_pieces
  | term v ih => exact ih
  | namedTerm f v ih => exact ih
  | combine c ns ih =>
    have between : Separated (List.intercalate [.plain (' ' :: c.word.toList ++ [' '])]
        (piecesList ns)) := by
      rw [piecesList_eq_map]
      exact .intercalate (by decide) (List.forall_mem_map.2 ih)
    exact Separated.append between trivial (stops_plain (by decide) _ _)
  | modify m n ih =>
    cases m with
    | not => exact Separated.append ih trivial (stops_plain (by decide) _ _)
    | required | prohibited => exact ih
  | constant n boost ih =>
    have last : Separated [.plain ")^=".toList, .number boost] := ⟨by rintro c ⟨⟩, trivial⟩
    exact Separated.append ih last (stops_plain (by decide) _ _)

end Node

/-! ## Facing pieces -/

/-- Pieces with the same characters, or with numbers of one value. -/
inductive Piece.Faces : Piece → Piece → Prop where
  | plain (t : List Char) : Faces (.plain t) (.plain t)
  | number {m n : Number} (same : m.sameValue n = true) : Faces (.number m) (.number n)

section Faces

variable {ps qs : List Piece}

theorem faces_intercalate {t : List Char} {parts parts' : List (List Piece)}
    (each : List.Forall₂ (List.Forall₂ Piece.Faces) parts parts') :
    List.Forall₂ Piece.Faces (List.intercalate [.plain t] parts)
      (List.intercalate [.plain t] parts') := by
  induction each with
  | nil => exact .nil
  | cons first rest ih =>
    cases rest with
    | nil => simpa [List.intercalate] using first
    | cons second rest =>
      rw [List.intercalate_cons_cons, List.intercalate_cons_cons]
      exact List.rel_append (List.rel_append first (.cons (.plain t) .nil)) ih

theorem faces_commaPieces {parts parts' : List (List Piece)}
    (each : List.Forall₂ (List.Forall₂ Piece.Faces) parts parts') :
    List.Forall₂ Piece.Faces (commaPieces parts) (commaPieces parts') :=
  .cons (.plain _) (List.rel_append (faces_intercalate each) (.cons (.plain _) .nil))

theorem faces_members {α : Type} {inPieces : α → List Piece} {xs ys : List α}
    (each : List.Forall₂ (fun x y => List.Forall₂ Piece.Faces (inPieces x) (inPieces y)) xs ys) :
    List.Forall₂ Piece.Faces (commaPieces (xs.map inPieces)) (commaPieces (ys.map inPieces)) :=
  faces_commaPieces (by rwa [List.forall₂_map_left_iff, List.forall₂_map_right_iff])

theorem faces_quoted (faces : List.Forall₂ Piece.Faces ps qs) :
    List.Forall₂ Piece.Faces (ps.map Piece.quoted) (qs.map Piece.quoted) := by
  rw [List.forall₂_map_left_iff, List.forall₂_map_right_iff]
  refine faces.imp fun p q face => ?_
  cases face with
  | plain t => exact .plain _
  | number same => exact .number same

theorem sameValue_of_faces (faces : List.Forall₂ Piece.Faces ps qs) :
    List.Forall₂ (fun m n => m.sameValue n = true) (ps.filterMap Piece.number?)
      (qs.filterMap Piece.number?) := by
  induction faces with
  | nil => exact .nil
  | cons face _ ih =>
    cases face with
    | plain t => exact ih
    | number same => exact .cons same ih

/-- Facing pieces have one text exactly when their numbers have. -/
theorem piecesText_eq_iff (faces : List.Forall₂ Piece.Faces ps qs) (separated : Separated ps)
    (separated' : Separated qs) :
    piecesText ps = piecesText qs ↔
      List.Forall₂ (fun m n => m.queryText = n.queryText) (ps.filterMap Piece.number?)
        (qs.filterMap Piece.number?) := by
  induction faces with
  | nil => exact iff_of_true rfl .nil
  | cons face _ ih =>
    cases face with
    | plain t => exact List.append_right_inj t |>.trans (ih separated separated')
    | @number m n same =>
      have behind := ih separated.2 separated'.2
      constructor
      · intro text
        obtain ⟨first, rest⟩ := append_stops_inj
          (fun _ => Number.numeralChar_of_mem_queryText)
          (fun _ => Number.numeralChar_of_mem_queryText) separated.1 separated'.1 text
        exact .cons first (behind.1 rest)
      · rintro (_ | ⟨first, rest⟩)
        exact congrArg₂ (· ++ ·) first (behind.2 rest)

end Faces

end QueryTree
