import MetadataIndex.Geo.Basic
import MetadataIndex.Proofs.Effect.Comparison
import MetadataIndex.Proofs.Effect.Faults

/-!
# Coordinates that are refused

Reading a geometry ends only with refusals, and a geometry that is read has positions of at least two
coordinates, so that it can be written.
-/

set_option autoImplicit false

namespace MetadataIndex

def Fault.IsRefusal (fault : Fault) : Prop := ∃ cause, fault = .refused cause

namespace Geo

open Checked (FailsWith)

open Fault (IsRefusal)

variable {ν : Type} {n : Numbers ν}

/-- Numbers are read or refused. -/
structure Numbers.OnlyRefuse (n : Numbers ν) : Prop where
  number : ∀ s, FailsWith IsRefusal (n.number s)
  sexagesimal : ∀ s, FailsWith IsRefusal (n.sexagesimal s)

theorem doubles_onlyRefuse : doubles.OnlyRefuse where
  number s := .required ⟨_, rfl⟩ _
  sexagesimal s := by
    change FailsWith IsRefusal (sexagesimalToDecimal s)
    have part : ∀ cs, FailsWith IsRefusal (integerPart cs) := fun _ => .required ⟨_, rfl⟩ _
    unfold sexagesimalToDecimal
    dsimp only
    split
    · split
      · exact (part _).bind fun _ _ => (part _).bind fun _ _ => (part _).bind fun _ _ => .ok _
      · exact .error ⟨_, rfl⟩
    · exact .error ⟨_, rfl⟩

/-- A position with the two coordinates that are written. -/
def IsPlace (p : Position ν) : Prop := ∃ x y more, p = x :: y :: more

theorem isPlace_of_length {p : Position ν} (enough : 2 ≤ p.length) : IsPlace p := by
  match p, enough with
  | x :: y :: more, _ => exact ⟨x, y, more, rfl⟩

/-- Positions are read or refused, and can be written. -/
structure ReadsPlaces (c : Checked (List (Position ν))) : Prop where
  refuses : FailsWith IsRefusal c
  places : ∀ positions, c = .ok positions → ∀ p ∈ positions, IsPlace p

theorem ReadsPlaces.nil : ReadsPlaces (.ok [] : Checked (List (Position ν))) where
  refuses := .ok []
  places := by
    rintro _ ⟨⟩
    exact List.forall_mem_nil _

theorem ReadsPlaces.cons {p : Position ν} (place : IsPlace p) {c : Checked (List (Position ν))}
    (rest : ReadsPlaces c) : ReadsPlaces (do return p :: (← c)) where
  refuses := rest.refuses.bind fun _ _ => .ok _
  places positions ran := by
    obtain ⟨others, read, ran⟩ := Checked.bind_ok ran
    cases ran
    exact List.forall_mem_cons.mpr ⟨place, rest.places others read⟩

theorem groupPositions_readsPlaces (refuses : n.OnlyRefuse) {dimensions : Int}
    (enough : 2 ≤ dimensions) (reverse : Bool) (current : List ν) (texts : List String) :
    ReadsPlaces (groupPositions n dimensions reverse current texts) := by
  induction texts generalizing current with
  | nil => exact .nil
  | cons text texts ih =>
    rw [groupPositions]
    cases read : n.number text with
    | error fault =>
      refine ⟨?_, nofun⟩
      rintro _ ⟨⟩
      exact refuses.number text fault read
    | ok x =>
      change ReadsPlaces (if ((current ++ [x]).length : Int) = dimensions then _ else _)
      split
      case isFalse => exact ih _
      case isTrue full =>
        obtain ⟨y, z, more, same⟩ := isPlace_of_length (p := current ++ [x]) (by omega)
        rw [same]
        split
        · exact .cons ⟨z, y, more, rfl⟩ (ih [])
        · exact .cons ⟨y, z, more, rfl⟩ (ih [])

theorem readPositions_readsPlaces (refuses : n.OnlyRefuse) {dimensions : Int} (enough : 2 ≤ dimensions)
    (coords separator : String) (reverse : Bool) :
    ReadsPlaces (readPositions n coords separator dimensions reverse) := by
  unfold readPositions
  split
  · exact .nil
  · exact groupPositions_readsPlaces refuses enough reverse [] _

theorem rectangle_isPlace (values : List ν) : ∀ p ∈ rectangle n values, IsPlace p := by
  unfold rectangle
  split
  · simp [IsPlace]
  · split
    · simp [IsPlace]
    · simp [IsPlace]
  · simp

theorem readSexagesimal_readsPlaces (refuses : n.OnlyRefuse) (coords separator : String) :
    ReadsPlaces (readSexagesimal n coords separator) := by
  unfold readSexagesimal
  split
  · exact .nil
  · refine ⟨(FailsWith.mapM fun _ _ => refuses.sexagesimal _).map _, fun positions ran => ?_⟩
    cases read : (tokens coords separator).mapM n.sexagesimal with
    | error fault =>
      rw [read] at ran
      cases ran
    | ok values =>
      rw [read] at ran
      cases ran
      exact rectangle_isPlace values

/-- What is made of positions that are read has such positions. -/
theorem ReadsPlaces.map {c : Checked (List (Position ν))} (reads : ReadsPlaces c)
    {make : List (Position ν) → Option (Geometry ν)}
    (kept : ∀ positions, ∀ g ∈ make positions, g.positions ⊆ positions) :
    FailsWith IsRefusal (c.map make)
      ∧ ∀ g, c.map make = .ok (some g) → ∀ p ∈ g.positions, IsPlace p := by
  refine ⟨reads.refuses.map make, fun g ran p member => ?_⟩
  cases c with
  | error fault => cases ran
  | ok positions =>
    exact reads.places positions rfl p (kept positions g (Except.ok.inj ran) member)

theorem pointOf_positions {positions : List (Position ν)} :
    ∀ g ∈ pointOf positions, g.positions ⊆ positions := by
  cases positions with
  | nil => rintro _ ⟨⟩
  | cons p more =>
    rintro _ ⟨⟩
    exact List.cons_subset_cons p (List.nil_subset more)

theorem polygonOf_positions {positions : List (Position ν)} :
    ∀ g ∈ polygonOf positions, g.positions ⊆ positions := by
  cases positions with
  | nil => rintro _ ⟨⟩
  | cons p more =>
    rintro _ ⟨⟩
    exact List.Subset.refl _

/-- A geometry is read or refused, and its positions can be written. -/
theorem readGeometry_places (refuses : n.OnlyRefuse) (coords separator : String) (kind : Kind) :
    FailsWith IsRefusal (readGeometry n coords separator kind)
      ∧ ∀ g, readGeometry n coords separator kind = .ok (some g) → ∀ p ∈ g.positions, IsPlace p := by
  cases kind with
  | point latitudeFirst =>
    exact (readPositions_readsPlaces refuses (Int.le_refl 2) coords separator latitudeFirst).map
      fun _ => pointOf_positions
  | polygon latitudeFirst =>
    exact (readPositions_readsPlaces refuses (Int.le_refl 2) coords separator latitudeFirst).map
      fun _ => polygonOf_positions
  | mods =>
    unfold readGeometry
    dsimp only
    split
    case isTrue count =>
      exact (readPositions_readsPlaces refuses (by omega) coords separator false).map
        fun _ => pointOf_positions
    case isFalse => exact ⟨.error ⟨_, rfl⟩, nofun⟩
  | sexagesimal =>
    refine (readSexagesimal_readsPlaces refuses coords separator).map fun positions => ?_
    split
    · rintro _ ⟨⟩
      exact List.Subset.refl _
    · exact polygonOf_positions

theorem wkt_ok {positions : List (Position ν)} (places : ∀ p ∈ positions, IsPlace p) :
    ∃ text, wkt n positions = .ok text := by
  have written : ∀ p, IsPlace p → ∃ text, positionText n p = .ok text := by
    rintro _ ⟨x, y, more, rfl⟩
    exact ⟨_, rfl⟩
  unfold wkt
  split
  · exact ⟨none, rfl⟩
  · exact Checked.exists_map_ok.mpr (written _ (places _ (.head _)))
  · exact Checked.exists_map_ok.mpr
      (Checked.mapM_ok_iff_each.mpr fun p member => written p (places p member))

/-- Coordinates are converted, or there are none: what cannot be read is refused, and what is read can be
written. -/
theorem convertWith_cases (refuses : n.OnlyRefuse) (coords kind separator : String) :
    (∃ g text, geometry? n coords kind separator = some g ∧ wkt n g.positions = .ok text
        ∧ convertWith n coords kind separator = ⟨some (geoJson n g), text⟩)
      ∨ convertWith n coords kind separator = {} := by
  unfold convertWith
  cases found : geometry? n coords kind separator with
  | none => exact .inr rfl
  | some g =>
    have places : ∀ p ∈ g.positions, IsPlace p := by
      unfold geometry? at found
      split at found
      · cases found
      · split at found
        · cases found
        · next k _ =>
          split at found
          · next read =>
            cases found
            exact (readGeometry_places refuses coords separator k).2 g read
          · cases found
    obtain ⟨text, written⟩ := wkt_ok (n := n) places
    refine .inl ⟨g, text, rfl, written, ?_⟩
    dsimp only
    rw [written]

end Geo

end MetadataIndex
