import MetadataIndex.Proofs.Transform.Alike

/-!
# Kept authority records and transformations

What a transformation gives does not depend on the authority records that are kept: with a lookup
and citations that always answer alike, it is the same without a cache, with an empty one, and with
one that earlier uses have left.
-/

set_option autoImplicit false

namespace MetadataIndex

open AuthorityService (Finds)

variable {ω τ : Type} {answer : String → Checked LookupResult}
  {document : String → Checked (Option Xml.Cursor)}

namespace GroupBuilder

/-- The authority records of a builder come from a lookup with fixed answers. -/
def Answers (b : GroupBuilder ω τ) (answer : String → Checked LookupResult) : Prop :=
  ∀ service, b.authority = some service → service.Answers answer

def Cites (b : GroupBuilder ω τ) (document : String → Checked (Option Xml.Cursor)) : Prop :=
  ∀ fetch, b.citations = some fetch → ∀ address, (fetch address).Gives (document address)

variable {b : GroupBuilder ω τ}

/-- Runs of a builder in the same state keep what fetching records keeps. -/
theorem respects_same {J : Option (AuthorityCache τ) → Prop}
    (records : ∀ service, b.authority = some service → ∀ uri,
      Action.Ensures (fun o => J o.cache) (fun _ => True) (service.recordOf uri)) :
    b.Respects False Eq (SameKept J) := by
  refine ⟨fun service present uri => ?_, fun fetch _ address => .refl (fetch address)⟩
  rw [AuthorityState.related_same]
  refine (records service present uri).compares_self.imp ?_
  rintro r _ rfl
  rfl

/-- Runs of a builder with different kept records and clocks give the same. -/
theorem Answers.respects_kept {lax : Prop} (answers : b.Answers answer) (cites : b.Cites document) :
    b.Respects lax (fun _ _ => True) (BothKept (KeptOnly (Finds answer))) where
  records service present uri := AuthorityService.fetch_compares (answers service present)
    (AuthorityService.resolveUri service.base uri)
  documents fetch present address := (cites fetch present address).compares

end GroupBuilder

namespace Transformer

variable {t : Transformer ω τ}

theorem transform_ensures {J : Option (AuthorityCache τ) → Prop}
    (records : ∀ service, t.builder.authority = some service → ∀ uri,
      Action.Ensures (fun o => J o.cache) (fun _ => True) (service.recordOf uri))
    (input : TransformInput) :
    Action.Ensures (fun o => J o.cache) (fun _ => True) (t.transform input) := by
  refine .of_leaves fun o kept => ?_
  have compared := transform_compares_self (GroupBuilder.respects_same records) input
  exact (compared.leaves ⟨rfl, rfl, kept⟩).cache.2

end Transformer

theorem GroupBuilder.Answers.transform_ensures {t : Transformer ω τ}
    (answers : t.builder.Answers answer) (input : TransformInput) :
    Action.Ensures (AuthorityState.KeepsOnly (Finds answer)) (fun _ => True)
      (t.transform input) := by
  refine Transformer.transform_ensures (fun service present uri => ?_) input
  exact (AuthorityService.fetch_ensures (answers service present) fun _ finds => finds).imp
    fun _ _ => trivial

/-- A use of the authority records that are kept, or a change of the outer world between uses. -/
inductive AuthorityUse (ω τ : Type) where
  | transform (t : Transformer ω τ) (input : TransformInput)
  | resolve (service : AuthorityService ω τ) (style : AuthorityStyle) (uri : String)
    (texts : AuthorityTexts)
  | ask (service : AuthorityService ω τ) (key : String)
  | remove (key : String)
  | clear
  | passes (change : ω → ω)

namespace AuthorityUse

/-- The state after a use, also after one that ends with a fault. -/
def run : AuthorityUse ω τ → AuthorityState ω τ → AuthorityState ω τ
  | transform t input, o => (t.transform input).leaves o
  | resolve service style uri texts, o => ((service.resolve style uri).leaves (o, texts)).1
  | ask service key, o => (service.fromCache key).leaves o
  | remove key, o => { o with cache := o.cache.map (·.remove key) }
  | clear, o => { o with cache := o.cache.map (·.clear) }
  | passes change, o => { o with world := change o.world }

def runAll (uses : List (AuthorityUse ω τ)) (o : AuthorityState ω τ) : AuthorityState ω τ :=
  uses.foldl (fun o use => use.run o) o

/-- The use looks records up where the answers are fixed. -/
def Over (answer : String → Checked LookupResult) : AuthorityUse ω τ → Prop
  | transform t _ => t.builder.Answers answer
  | resolve service .. => service.Answers answer
  | _ => True

theorem mapped_keepsOnly {P : String → List (String × String) → Prop} {o : AuthorityState ω τ}
    (kept : o.KeepsOnly P) {change : AuthorityCache τ → AuthorityCache τ}
    (keeps : ∀ cache, cache.KeepsOnly P → (change cache).KeepsOnly P) :
    ({ o with cache := o.cache.map change } : AuthorityState ω τ).KeepsOnly P := by
  intro cache same
  obtain ⟨before, present, rfl⟩ := Option.map_eq_some_iff.mp same
  exact keeps before (kept before present)

theorem run_keeps {use : AuthorityUse ω τ} (fixed : use.Over answer) {o : AuthorityState ω τ}
    (kept : o.KeepsOnly (Finds answer)) : (use.run o).KeepsOnly (Finds answer) := by
  cases use with
  | transform t input => exact (fixed.transform_ensures input).leaves kept
  | resolve service style uri texts =>
    have ensured : Action.Ensures (fun s : AuthorityState ω τ × AuthorityTexts =>
        s.1.KeepsOnly (Finds answer)) (fun _ => True) (service.resolve style uri) := by
      refine Action.Ensures.bind ((AuthorityService.fetch_ensures fixed fun _ finds => finds).onPart
        (fun _ holds => holds) fun _ _ _ holds => holds) fun r _ => ?_
      cases r with
      | none => exact .pure trivial
      | some r => exact (Action.Ensures.trivial _).onPart (fun _ _ => trivial) fun _ _ holds _ => holds
    exact ensured.leaves kept
  | ask service key => exact (AuthorityService.fromCache_ensures service key).leaves kept
  | remove key => exact mapped_keepsOnly kept fun _ keeps => keeps.remove key
  | clear => exact mapped_keepsOnly kept fun cache _ => cache.keepsOnly_clear
  | passes change => exact kept

/-- Uses in order keep only entries that the lookup finds. -/
theorem runAll_keeps {uses : List (AuthorityUse ω τ)} (fixed : ∀ use ∈ uses, use.Over answer)
    {o : AuthorityState ω τ} (kept : o.KeepsOnly (Finds answer)) :
    (runAll uses o).KeepsOnly (Finds answer) := by
  induction uses generalizing o with
  | nil => exact kept
  | cons use uses ih =>
    exact ih (fun later member => fixed later (.tail _ member)) (run_keeps (fixed use (.head _)) kept)

end AuthorityUse

def AuthorityState.HoldsNothing (o : AuthorityState ω τ) : Prop :=
  ∀ cache, o.cache = some cache → cache.records = ∅

theorem AuthorityState.HoldsNothing.keepsOnly {P : String → List (String × String) → Prop}
    {o : AuthorityState ω τ} (nothing : o.HoldsNothing) :
    o.KeepsOnly P :=
  fun cache present => AuthorityCache.keepsOnly_of_empty (nothing cache present)

namespace Transformer

variable {t : Transformer ω τ}

/-- A transformation gives the same after any uses of any cache, and every record kept after it has
the entries that the lookup finds, of which there is one at least. -/
theorem transform_independent_of_kept (answers : t.builder.Answers answer)
    (cites : t.builder.Cites document) (input : TransformInput)
    (earlier earlier' : List (AuthorityUse ω τ)) (fixed : ∀ use ∈ earlier, use.Over answer)
    (fixed' : ∀ use ∈ earlier', use.Over answer) {o o' : AuthorityState ω τ}
    (nothing : o.HoldsNothing) (nothing' : o'.HoldsNothing) :
    (t.transform input).outcome (AuthorityUse.runAll earlier o)
        = (t.transform input).outcome (AuthorityUse.runAll earlier' o')
      ∧ ((t.transform input).leaves (AuthorityUse.runAll earlier o)).KeepsOnly (Finds answer) := by
  have kept : (AuthorityUse.runAll earlier o).KeepsOnly (Finds answer) :=
    AuthorityUse.runAll_keeps fixed nothing.keepsOnly
  have kept' : (AuthorityUse.runAll earlier' o').KeepsOnly (Finds answer) :=
    AuthorityUse.runAll_keeps fixed' nothing'.keepsOnly
  have respects : t.builder.Respects False (fun _ _ => True) (BothKept (KeptOnly (Finds answer))) :=
    answers.respects_kept cites
  have compared := transform_compares_self respects input
  exact ⟨(compared.outcome ⟨trivial, kept, kept'⟩).eq,
    (answers.transform_ensures input).leaves kept⟩

def oneName (uri : String) : Checked LookupResult :=
  .ok (if uri = "http://n/1" then .found [("NORM_NAME", "Anna")] else .failed "unknown")

/-- A service whose clock goes on by half an hour at each reading. -/
def halfHours : AuthorityService Rat Rat where
  lookup uri := liftM (oneName uri)
  now w := (w, w + 1800)
  scale := .exact

theorem halfHours_answers : halfHours.Answers oneName := by
  intro uri w
  cases known : oneName uri with
  | ok result => simp only [halfHours, known]; rfl
  | error fault => simp only [halfHours, known]; rfl

def oneNameTransformer : Transformer Rat Rat where
  rules := {
    fields := [("N", [{
      field := "N", sources := [{ xpath := "n" }], addToDefault := true
      group := some (.mk "N" .subject none none
        [{ name := FieldName.mainValue, xpaths := ["."] },
          { name := FieldName.normUri, xpaths := ["@uri"] }] [] true true) }])] }
  builder := { authority := some halfHours }

def oneNameInput : TransformInput where
  element := (Xml.Document.read? "<r><n uri='http://n/1'>A.</n></r>").bind (·.root?)

/-- Uses that look a name up, drop it when it is too old, and look it up again. -/
def oneNameUses : List (AuthorityUse Rat Rat) :=
  [.transform oneNameTransformer oneNameInput, .passes (· + 7200), .ask halfHours "http://n/1",
    .resolve halfHours {} "http://n/1" {}]

theorem transform_after_oneNameUses :
    (AuthorityUse.runAll oneNameUses ⟨0, some { lifetime := 1 }⟩).cacheSize = some 1
      ∧ oneNameTransformer.builder.Answers oneName
      ∧ (oneNameTransformer.transform oneNameInput).outcome
          (AuthorityUse.runAll oneNameUses ⟨0, some { lifetime := 1 }⟩)
        = (oneNameTransformer.transform oneNameInput).outcome
          (AuthorityUse.runAll [] ⟨5, none⟩) := by
  have answers := halfHours_answers
  have built : oneNameTransformer.builder.Answers oneName := by
    rintro service ⟨⟩
    exact answers
  have cites : oneNameTransformer.builder.Cites fun _ => .ok none := nofun
  have fixed : ∀ use ∈ oneNameUses, use.Over oneName := by
    intro use member
    rw [oneNameUses, List.mem_cons, List.mem_cons, List.mem_cons, List.mem_singleton] at member
    obtain rfl | rfl | rfl | rfl := member
    · exact built
    · exact trivial
    · exact trivial
    · exact answers
  have nothing : (⟨0, some { lifetime := 1 }⟩ : AuthorityState Rat Rat).HoldsNothing := by
    rintro cache ⟨⟩
    rfl
  have nothing' : (⟨5, none⟩ : AuthorityState Rat Rat).HoldsNothing := nofun
  have same := transform_independent_of_kept built cites oneNameInput oneNameUses [] fixed
    (List.forall_mem_nil _) nothing nothing'
  refine ⟨?_, built, same.1⟩
  decide +kernel

end Transformer

end MetadataIndex
