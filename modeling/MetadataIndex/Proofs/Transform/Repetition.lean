import Mathlib.Logic.Relation
import MetadataIndex.Proofs.Transform.Extension

/-!
# Writing a value again

What writing a value asks of the owning record can only come to hold: that fields, terms and centuries
are there. So a value that was written is absorbed when it is written again, whatever was added in
between, unless its rule asks for repetition.
-/

set_option autoImplicit false

namespace MetadataIndex

open MetadataIndex.Xml (Cursor)

variable {ω τ : Type}

namespace Collector

variable {c c₁ c₂ : Collector} {name value : String} {repeats : Bool}

/-- Nothing of a value is still to be written: each of its parts is empty or known. -/
def Knows (c : Collector) (name value : String) : Prop :=
  ∀ f ∈ partsOf name value, f.value = "" ∨ c.keys.contains f = true

theorem Knows.mono (knows : c₁.Knows name value) (grown : c₁.Extends c₂) : c₂.Knows name value :=
  fun f part => (knows f part).imp_right (grown.keys f)

theorem knows_put (repeats : Bool) (c : Collector) (name value : String) :
    (c.put name value repeats).Knows name value := by
  intro f part
  by_cases given : f.value = ""
  · exact .inl given
  · exact .inr (known_put.mpr (.inr ⟨part, given⟩))

theorem Knows.put_eq (knows : c.Knows name value) : c.put name value = c := by
  have absorbed : ∀ f, f.value = "" ∨ c.keys.contains f = true → (c.addPart false f).1 = c := by
    rintro f (empty | known)
    · simp [addPart, empty]
    · simp [addPart, known]
  unfold Knows at knows
  rw [put_eq_foldl]
  generalize partsOf name value = parts at knows
  induction parts with
  | nil => rfl
  | cons f parts ih =>
    obtain ⟨head, rest⟩ := List.forall_mem_cons.mp knows
    rw [List.foldl_cons, absorbed f head, ih rest]

theorem addDefault_of_extends (grown : (c.addDefault value).Extends c₂) : c₂.addDefault value = c₂ := by
  have there : c₂.default.contains value = true := by
    rw [FreeText.contains_iff]
    exact (FreeText.contains_iff.mp (c.default.contains_add value)).trans grown.text.isInfix
  rw [addDefault, FreeText.add_of_contains there]

theorem hasField_of_extends (grown : c.Extends c₂) (there : c.hasField name = true) :
    c₂.hasField name = true := by
  simp only [hasField, ← Array.any_toList, List.any_eq_true] at there ⊢
  obtain ⟨f, member, same⟩ := there
  exact ⟨f, grown.fields.subset member, same⟩

/-- A step adds something, and is absorbed when it is taken again later. -/
structure Lasting (step : Collector → Checked Collector) : Prop where
  grows : ∀ {c c₁}, step c = .ok c₁ → c.Extends c₁
  again : ∀ {c c₁ c₂}, step c = .ok c₁ → c₁.Extends c₂ → step c₂ = .ok c₂

namespace Lasting

theorem pure : Lasting Pure.pure where
  grows ran := by
    cases ran
    exact .refl _
  again _ _ := rfl

theorem put (name value : String) : Lasting fun c => .ok (c.put name value) where
  grows ran := by
    cases ran
    exact (Extends.refl _).put name value false
  again ran grown := by
    cases ran
    exact congrArg _ ((knows_put _ _ _ _).mono grown).put_eq

theorem addDefault (value : String) : Lasting fun c => .ok (c.addDefault value) where
  grows ran := by
    cases ran
    exact (Extends.refl _).addDefault value
  again ran grown := by
    cases ran
    exact congrArg _ (addDefault_of_extends grown)

theorem comp {first next : Collector → Checked Collector} (lasts : Lasting first)
    (lastsNext : Lasting next) : Lasting (first >=> next) where
  grows ran := by
    obtain ⟨middle, head, rest⟩ := Checked.bind_ok ran
    exact (lasts.grows head).trans (lastsNext.grows rest)
  again ran grown := by
    obtain ⟨middle, head, rest⟩ := Checked.bind_ok ran
    have before := lasts.again head ((lastsNext.grows rest).trans grown)
    exact (congrArg (· >>= next) before).trans (lastsNext.again rest grown)

theorem ofList {α : Type} {step : Collector → α → Checked Collector} {items : List α}
    (lasts : ∀ a ∈ items, Lasting fun c => step c a) : Lasting fun c => items.foldlM step c := by
  induction items with
  | nil => exact .pure
  | cons a items ih =>
    obtain ⟨head, rest⟩ := List.forall_mem_cons.mp lasts
    exact head.comp (ih rest)

theorem foldlM {α : Type} {step : Collector → α → Checked Collector}
    (lasts : ∀ a, Lasting fun c => step c a) {items : List α} (ran : items.foldlM step c = .ok c₁) :
    c.Extends c₁ ∧ ∀ a ∈ items, ∀ c₂, c₁.Extends c₂ → step c₂ a = .ok c₂ := by
  induction items generalizing c with
  | nil =>
    cases ran
    exact ⟨.refl _, List.forall_mem_nil _⟩
  | cons a items ih =>
    obtain ⟨middle, head, rest⟩ := Checked.bind_ok ran
    obtain ⟨grown, absorbed⟩ := ih rest
    exact ⟨((lasts a).grows head).trans grown, List.forall_mem_cons.mpr
      ⟨fun c₂ later => (lasts a).again head (grown.trans later), absorbed⟩⟩

end Lasting

end Collector

namespace FieldRule

open Collector

variable {r : FieldRule} {c c₁ c₂ : Collector}

theorem writeSort_eq (mark : String) (f : Field) (c : Collector) :
    r.writeSort mark f c = if c.hasField (sortFieldName f.name mark) then .ok c
      else (sortValue r.pipeline.nonSort r.pipeline.normalizers f.value).map
        fun key => c.put (sortFieldName f.name mark) key := by
  unfold writeSort
  rw [Collector.addSortField_eq]
  split
  case isTrue => rfl
  case isFalse absent =>
    cases sortValue r.pipeline.nonSort r.pipeline.normalizers f.value with
    | error fault => rfl
    | ok key => simp only [Except.map, Collector.putFirst, if_neg absent]

/-- The first sort field stays; a key without text is empty again. -/
theorem writeSort_lasting (mark : String) (f : Field) : Lasting (r.writeSort mark f) where
  grows {c c₁} ran := by
    rcases writeSort_ok ran with rfl | ⟨key, rfl⟩
    · exact .refl _
    · exact (Extends.refl _).put _ key false
  again {c c₁ c₂} ran grown := by
    rw [writeSort_eq] at ran ⊢
    split
    case isTrue => rfl
    case isFalse absent =>
      split at ran
      case isTrue there =>
        cases ran
        exact absurd (hasField_of_extends grown there) absent
      case isFalse =>
        cases made : sortValue r.pipeline.nonSort r.pipeline.normalizers f.value with
        | error fault =>
          rw [made] at ran
          cases ran
        | ok key =>
          rw [made] at ran
          cases ran
          exact congrArg _ ((knows_put _ _ _ _).mono grown).put_eq

theorem writeDateField_lasting (f : Field) : Lasting fun c => r.writeDateField c f :=
  (Lasting.put f.name f.value).comp (writeSort_lasting FieldName.sortNumberMark f)

/-- Dates that are written again give no centuries, since those are noted. -/
theorem writeDates_lasting (value : String) : Lasting (r.writeDates value) where
  grows {c c₁} ran := (r.writesKeep_extends c).dates _ _ value (.refl c) ran
  again {c c₁ c₂} ran grown := by
    obtain ⟨fields, centuries, made, ran⟩ := writeDates_ok ran
    obtain ⟨written, absorbed⟩ := Lasting.foldlM writeDateField_lasting ran
    obtain ⟨again, same, given⟩ := dateFields_of_noted made (written.trans grown).centuries
    unfold writeDates
    rw [same]
    change again.foldlM r.writeDateField c₂ = .ok c₂
    clear same
    induction again with
    | nil => rfl
    | cons f again ih =>
      obtain ⟨head, rest⟩ := List.cons_subset.mp given
      rw [List.foldlM_cons, absorbed f head c₂ grown]
      exact ih rest

theorem step_lasting (once : r.allowDuplicates = false) {value : String} {step : WriteStep}
    (taken : step.IsOf r value) : Lasting fun c => step.run r c := by
  cases taken with
  | place wkt => exact .put FieldName.wktCoords wkt
  | text => exact .addDefault value
  | dates => exact writeDates_lasting value
  | own =>
    rw [once]
    exact .put r.field value
  | sort => exact writeSort_lasting FieldName.sortMark ⟨r.field, value⟩
  | copy =>
    rw [once]
    exact .put (FieldName.untokenized r.field) value

theorem writeAccepted_lasting (once : r.allowDuplicates = false) (accepted : String) :
    Lasting (r.writeAccepted accepted) := by
  have lasting : Lasting fun c => (r.writeSteps accepted).foldlM (WriteStep.run r) c :=
    .ofList fun _ member => step_lasting once (isOf_of_mem member)
  simpa only [← writeAccepted_eq] using lasting

theorem write_lasting (once : r.allowDuplicates = false) {raw : String} {now : Bool}
    (first : r.write raw c = .ok (c₁, now)) :
    c.Extends c₁ ∧ ∀ c₂, c₁.Extends c₂ → r.write raw c₂ = .ok (c₂, now) := by
  unfold write at first ⊢
  obtain ⟨value, accepted, written⟩ := Checked.bind_ok first
  rw [accepted]
  cases value with
  | none =>
    cases written
    exact ⟨.refl _, fun _ _ => rfl⟩
  | some value =>
    obtain ⟨next, single, written⟩ := Checked.bind_ok written
    cases written
    refine ⟨(writeAccepted_lasting once value).grows single, fun c₂ grown => ?_⟩
    exact congrArg (· >>= fun next => .ok (next, true))
      ((writeAccepted_lasting once value).again single grown)

end FieldRule

namespace Collector

variable {c c₁ c₂ : Collector}

/-- What happens to the owning record while rules are applied: a value, a constant or the years in the
gaps are written, a group is built, which may end with a fault, or the authority fields of a record are
copied. -/
inductive Step : Collector → Collector → Prop where
  | value {r : FieldRule} {raw : String} {now : Bool} {c c' : Collector} :
      r.write raw c = .ok (c', now) → Step c c'
  | constant {r : FieldRule} {text : String} {c c' : Collector} :
      r.writeConstant text c = .ok c' → Step c c'
  | years {r : FieldRule} {c c' : Collector} : r.interpolate c = .ok c' → Step c c'
  | group {ω τ : Type} (b : GroupBuilder ω τ) (r : FieldRule) (e : GroupEntity) (element : Cursor)
      (label : String) (restricted : Bool) (s : BuildState ω τ) :
      Step s.collector ((b.build r e element label restricted).leaves s).collector
  | copy (record : GroupedRecord) (c : Collector) : Step c (record.promote c)

theorem Step.grows (step : Step c c₁) : c.Extends c₁ := by
  cases step with
  | value written => exact (FieldRule.writesKeep_extends _ c).write (.refl c) written
  | constant written => exact (FieldRule.writesKeep_extends _ c).writeConstant (.refl c) written
  | years filled => exact (FieldRule.writesKeep_extends _ c).years _ _ (.refl c) filled
  | group b r e element label restricted s =>
    have ensured := GroupBuilder.build_ensures (T := fun _ => True) (e := e)
      ((r.writesKeep_extends s.collector).giftsKeep b).keeps (fun _ _ _ _ => trivial) trivial element
      label restricted
    exact ensured.leaves (.refl s.collector)
  | copy record =>
    exact GroupedRecord.promote_induction (.refl c) fun _ f _ _ before => before.put f.name f.value false

theorem extends_of_steps (steps : Relation.ReflTransGen Step c c₁) : c.Extends c₁ := by
  induction steps with
  | refl => exact .refl c
  | tail _ step before => exact before.trans step.grows

end Collector

open Collector (Step)

/-- Applying rules goes by these steps, so that the steps between two writes of a run are such. -/
theorem Transformer.applyRules_steps {t : Transformer ω τ} {input : TransformInput}
    {s s' : TransformState ω τ} (applied : t.applyRules input s = .ok () s') :
    Relation.ReflTransGen Step s.collector s'.collector := by
  have each : ∀ r, Action.Ensures (TransformState.Holds (Relation.ReflTransGen Step s.collector)
      fun _ => True) (fun _ => True) (t.applyRule input r) := by
    intro r
    refine applyRule_ensures_of (fun e i => ?_) (fun steps written => steps.tail (.constant written))
      (fun steps written => steps.tail (.value written)) fun steps filled => steps.tail (.years filled)
    refine buildGroup_ensures_of (Q := fun _ => True) (fun element => ?_) (fun _ _ _ => trivial) ?_
    · exact .of_leaves fun b steps => steps.tail (.group ..)
    · intro group _ c record _ steps
      exact steps.tail (.copy record c)
  exact ((Action.Ensures.forM _ fun r _ => each r).completed ⟨.refl, trivial⟩ applied).2.collector

/-- A value that a rule without repetition has written, or has declined to write, is written again
without effect and with the same answer, whatever was written, built and copied in between. -/
theorem FieldRule.write_again {r : FieldRule} (once : r.allowDuplicates = false) {raw : String}
    {now : Bool} {c c₁ c₂ : Collector} (first : r.write raw c = .ok (c₁, now))
    (between : Relation.ReflTransGen Step c₁ c₂) : r.write raw c₂ = .ok (c₂, now) :=
  (write_lasting once first).2 c₂ (Collector.extends_of_steps between)

/-- A rule that writes all that can be derived from a year, and again if it is asked to repeat. -/
def datedRule (repeats : Bool) : FieldRule where
  field := "DATE"
  addSortField := true
  addToDefault := true
  normalizeYear := true
  allowDuplicates := repeats

def annaRecord : GroupedRecord where
  index := 0
  label := "N"
  authorityFields := [⟨FieldName.normName, "Anna"⟩]
  promotesAuthority := true

theorem write_again_of_year :
    ∃ c₁ c₂, (datedRule false).write "1850" {} = .ok (c₁, true)
      ∧ (datedRule true).write "1850" c₁ = .ok (c₂, true)
      ∧ (c₁.values "DATE", c₂.values "DATE") = (["1850"], ["1850", "1850"])
      ∧ (datedRule false).write "1850" (annaRecord.promote c₂) = .ok (annaRecord.promote c₂, true) := by
  have given : (do
      let first ← (datedRule false).write "1850" {}
      let next ← (datedRule true).write "1850" first.1
      return ((first.1.values "DATE", next.1.values "DATE"), first.2, next.2) : Checked _)
        = .ok ((["1850"], ["1850", "1850"]), true, true) := by
    decide +kernel
  obtain ⟨⟨c₁, now⟩, first, given⟩ := Checked.bind_ok given
  obtain ⟨⟨c₂, again⟩, next, given⟩ := Checked.bind_ok given
  obtain ⟨values, same⟩ := Prod.mk.inj (Except.ok.inj given)
  obtain ⟨rfl, rfl⟩ := Prod.mk.inj same
  have between : Relation.ReflTransGen Step c₁ (annaRecord.promote c₂) :=
    .tail (.single (.value next)) (.copy annaRecord c₂)
  exact ⟨c₁, c₂, first, next, values, FieldRule.write_again rfl first between⟩

end MetadataIndex
