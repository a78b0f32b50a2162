import MetadataIndex.Transform.Writing
import MetadataIndex.Proofs.Field.Names
import MetadataIndex.Proofs.Geo.Unreadable

/-!
# Writing the mark of restricted access

The mark holds neither coordinates nor dates. A rule writes it to its own field and, if it asks for
one, to the sort field; it gives nothing to the free text and nothing to the copy that is not cut into
words.
-/

set_option autoImplicit false

namespace MetadataIndex

theorem Text.length_intercalate (sep : List Char) (piece : List Char) (more : List (List Char)) :
    (sep.intercalate (piece :: more)).length
      = (piece :: more).flatten.length + sep.length * more.length := by
  induction more generalizing piece with
  | nil => simp [List.intercalate]
  | cons next more ih =>
    rw [List.intercalate_cons_cons, List.length_append, List.length_append, ih]
    simp only [List.flatten_cons, List.length_append, List.length_cons, Nat.mul_succ]
    omega

/-- Leaving a literal out makes a text shorter by a multiple of its length. -/
theorem Text.length_replaceLiteral_empty (old s : String) :
    ∃ count, (replaceLiteral old "" s).length + old.length * count = s.length := by
  obtain ⟨piece, more, split⟩ := List.exists_cons_of_ne_nil (pieces_ne_nil old.toList 0 s.toList)
  have joined := congrArg List.length (intercalate_pieces old.toList 0 s.toList)
  rw [split, length_intercalate, List.drop_zero] at joined
  refine ⟨more.length, ?_⟩
  have flat : (replaceLiteral old "" s).length = (piece :: more).flatten.length := by
    rw [replaceLiteral, split, String.length_ofList]
    have none := length_intercalate [] piece more
    rw [List.length_nil, Nat.zero_mul] at none
    exact none
  rw [flat]
  exact joined

theorem length_sortFieldName (name : String) :
    ∃ count, (sortFieldName name).length + 3 * count = name.length + 5 := by
  obtain ⟨count, shorter⟩ := Text.length_replaceLiteral_empty "MD_" name
  refine ⟨count, ?_⟩
  have mark : FieldName.sortMark.length = 5 := rfl
  have literal : "MD_".length = 3 := rfl
  rw [literal] at shorter
  rw [sortFieldName, String.length_append, mark]
  omega

theorem sortFieldName_ne_self (name : String) : sortFieldName name ≠ name := by
  intro same
  obtain ⟨count, length⟩ := length_sortFieldName name
  rw [same] at length
  omega

theorem length_untokenized (name : String) :
    (FieldName.untokenized name).length = name.length + 12 := by
  rw [FieldName.untokenized, String.length_append]
  rfl

theorem untokenized_ne_self (name : String) : name ≠ FieldName.untokenized name := by
  intro same
  have length := length_untokenized name
  rw [← same] at length
  omega

theorem sortFieldName_ne_untokenized (name : String) :
    sortFieldName name ≠ FieldName.untokenized name := by
  intro same
  obtain ⟨count, length⟩ := length_sortFieldName name
  rw [same, length_untokenized] at length
  omega

theorem Collector.partsOf_mark (name : String) :
    partsOf name FieldName.accessRestricted = [⟨name, FieldName.accessRestricted⟩] := by
  have whole : Text.splitAtLiteral splitMark FieldName.accessRestricted
      = [FieldName.accessRestricted] := by
    decide +kernel
  rw [partsOf, whole]
  rfl

theorem Collector.values_put_mark (c : Collector) (name : String) (repeats : Bool) :
    (c.put name FieldName.accessRestricted repeats).values name = c.values name
      ++ if c.keys.contains ⟨name, FieldName.accessRestricted⟩ && !repeats then []
        else [FieldName.accessRestricted] := by
  have given : FieldName.accessRestricted.isEmpty = false := by decide +kernel
  rw [put_eq_foldl, partsOf_mark, List.foldl_cons, List.foldl_nil, addPart]
  rw [given, Bool.false_or]
  split
  · rw [List.append_nil]
  · simp [values, Field.valuesOf, toList]

namespace FieldRule

variable {r : FieldRule} {c c' : Collector}

theorem coordinates_mark (r : FieldRule) : r.coordinates FieldName.accessRestricted = {} := by
  have plain : FieldName.accessRestricted.toList.all (decide <| Decimal.IsPlain ·) = true := by
    decide +kernel
  rw [List.all_eq_true] at plain
  unfold coordinates
  split
  · have unreadable := Geo.unreadable_of_plain fun c member => of_decide_eq_true (plain c member)
    exact unreadable.convertWith_eq _
  · rfl

theorem read_mark {least : Int} {dates : List PartialDate}
    (read : DateText.read FieldName.accessRestricted least = .ok dates) : dates = [] := by
  have given : (Text.trim FieldName.accessRestricted).toList.isEmpty = false := by decide +kernel
  have absolute : DateText.absolute? (Text.trim FieldName.accessRestricted).toList = .ok none := rfl
  have range : DateText.isRange (Text.trim FieldName.accessRestricted).toList = false := by
    decide +kernel
  have runs : DateText.minusRuns false [] (Text.trim FieldName.accessRestricted).toList = [] := by
    decide +kernel
  unfold DateText.read at read
  split at read
  · cases read
  · dsimp only at read
    rw [given, if_neg Bool.false_ne_true] at read
    obtain ⟨date, tried, read⟩ := Checked.bind_ok read
    rw [absolute] at tried
    cases tried
    rw [DateText.scanYears, range, runs] at read
    cases read
    rfl

theorem dateFields_mark {centuries : List Int} {least : Int} {custom : Option Json}
    {fields : List Field × List Int}
    (made : dateFields centuries FieldName.accessRestricted least custom = .ok fields) :
    fields = ([], centuries) := by
  have given : FieldName.accessRestricted.isEmpty = false := by decide +kernel
  unfold dateFields at made
  rw [given] at made
  obtain ⟨dates, read, made⟩ := Checked.bind_ok made
  rw [read_mark read] at made
  cases made
  rfl

theorem writeDates_mark (written : r.writeDates FieldName.accessRestricted c = .ok c') :
    c' = c := by
  obtain ⟨fields, made, written⟩ := Checked.bind_ok written
  rw [dateFields_mark made] at written
  cases written
  rfl

theorem writeSort_ok {mark : String} {f : Field} (written : r.writeSort mark f c = .ok c') :
    c' = c ∨ ∃ key, c' = c.put (sortFieldName f.name mark) key := by
  unfold writeSort at written
  cases ran : c.addSortField f.name f.value mark r.pipeline.nonSort r.pipeline.normalizers with
  | error fault =>
    rw [ran] at written
    cases written
  | ok result =>
    rw [ran] at written
    cases written
    exact Collector.addSortField_ok ran

/-- What a rule writes for the mark: the mark itself under its own field, and neither free text nor a
copy that is not cut into words. -/
structure WritesMark (r : FieldRule) (c c' : Collector) : Prop where
  own : c'.values r.field = c.values r.field
    ++ if c.keys.contains ⟨r.field, FieldName.accessRestricted⟩ && !r.allowDuplicates then []
      else [FieldName.accessRestricted]
  default : c'.default = c.default
  untokenized : c'.values (FieldName.untokenized r.field) = c.values (FieldName.untokenized r.field)

/-- The mark that was accepted as it is, is written as it is. -/
theorem writesMark_of_writeAccepted
    (written : r.writeAccepted FieldName.accessRestricted c = .ok c') : r.WritesMark c c' := by
  have put : ∀ final, (if r.addSortField then
        r.writeSort FieldName.sortMark ⟨r.field, FieldName.accessRestricted⟩
          (c.put r.field FieldName.accessRestricted r.allowDuplicates)
      else pure (c.put r.field FieldName.accessRestricted r.allowDuplicates)) = .ok final →
      r.WritesMark c final := by
    intro final sorted
    have written : r.WritesMark c (c.put r.field FieldName.accessRestricted r.allowDuplicates) :=
      ⟨Collector.values_put_mark c r.field r.allowDuplicates, Collector.default_put c _ _,
        Collector.values_put c (untokenized_ne_self r.field)⟩
    split at sorted
    · obtain rfl | ⟨key, rfl⟩ := writeSort_ok sorted
      · exact written
      · exact ⟨(Collector.values_put _ (sortFieldName_ne_self r.field)).trans written.own,
          (Collector.default_put _ _ _).trans written.default,
          (Collector.values_put _ (sortFieldName_ne_untokenized r.field)).trans written.untokenized⟩
    · cases sorted
      exact written
  unfold writeAccepted at written
  rw [coordinates_mark] at written
  dsimp only [Option.getD_none, writeCoordinates] at written
  simp only [beq_self_eq_true, Bool.not_true, Bool.and_false, Bool.false_eq_true, if_false,
    bind_pure, pure_bind] at written
  split at written
  · obtain ⟨dated, dates, written⟩ := Checked.bind_ok written
    rw [writeDates_mark dates] at written
    exact put c' written
  · exact put c' written

/-- A rule for all values writes what it accepts of them, in order. -/
theorem writeAll_ok (all : r.stopsAfterFirst = false) {raw : List String}
    (written : r.writeAll raw c = .ok c') :
    ∃ accepted, raw.mapM r.accepted = .ok accepted
      ∧ (accepted.filterMap id).foldlM (fun c value => r.writeAccepted value c) c = .ok c' := by
  induction raw generalizing c with
  | nil => exact ⟨[], rfl, written⟩
  | cons first raw ih =>
    rw [writeAll] at written
    obtain ⟨⟨middle, now⟩, head, written⟩ := Checked.bind_ok written
    dsimp only at written
    rw [all, Bool.and_false, if_neg Bool.false_ne_true] at written
    obtain ⟨accepted, taken, rest⟩ := ih written
    rw [List.mapM_cons, taken]
    obtain ⟨value, accepts, head⟩ := Checked.bind_ok head
    rw [accepts]
    refine ⟨value :: accepted, rfl, ?_⟩
    cases value with
    | none =>
      cases head
      exact rest
    | some value =>
      obtain ⟨next, single, head⟩ := Checked.bind_ok head
      cases head
      change (value :: accepted.filterMap id).foldlM (fun c value => r.writeAccepted value c) c = _
      rw [List.foldlM_cons, single]
      exact rest

end FieldRule

end MetadataIndex
