import MetadataIndex.Service.Handler
import MetadataIndex.Service.Script
import MetadataIndex.Proofs.Rule.Shelf
import MetadataIndex.Proofs.Transform.Caching
import MetadataIndex.Proofs.Web.Static

/-!
# Requests after other requests

Authority records and rule files are kept from one request to the next. In a static world a request
is answered as it would be in a new process, when the requests before it that kept authority
records asked for them at the same addresses.
-/

set_option autoImplicit false

namespace MetadataIndex

open AuthorityService (Finds)

variable {ω : Type} {reply : String → Web.Reply}
  {file : String → String → Except String String} {p : Platform ω} {lax : Prop}
  {J : Option (AuthorityCache Float) → Prop} {s : NodeSettings}

namespace Platform

/-- Each address has one reply, and each file one content. -/
structure Static (p : Platform ω) (reply : String → Web.Reply)
    (file : String → String → Except String String) : Prop where
  network : p.network.Static reply
  files : p.files.Static file

/-- The state after requests in order, whatever their responses are. -/
def handleAll (p : Platform ω) (events : List Json) (s : ServiceState ω) : ServiceState ω :=
  events.foldl (fun s event => (p.handle event).leaves s) s

/-- The service of authority records with the options of a lookup. -/
def serviceOf (p : Platform ω) (o : LookupOptions) : AuthorityService ω Float :=
  { lookup := o.lookup p.network, now := p.now, scale := .floats }

/-- The kept rule files have the rules of their contents, and the kept authority records have a
property. -/
structure Keeps (file : String → String → Except String String)
    (J : Option (AuthorityCache Float) → Prop) (s : ServiceState ω) : Prop where
  shelf : s.shelf.Holds file
  cache : J s.cache

def BothKeep (file : String → String → Except String String)
    (J : Option (AuthorityCache Float) → Prop) (s s' : ServiceState ω) : Prop :=
  Keeps file J s ∧ Keeps file J s'

def transformer (p : Platform ω) (s : NodeSettings) (rules : RuleSet)
    (authority : Option (AuthorityService ω Float)) : Transformer ω Float :=
  { rules
    builder :=
      { evaluator := XPath.Evaluator.ofNamespaces rules.namespaces, authority
        citations := some (Citation.documentAt p.network { timeout := s.timeout }) } }

/-- A service looks records up with the options of settings that resolve identifiers, once a cache
with a property was brought in line with them. -/
structure ServiceOf (p : Platform ω) (s : NodeSettings) (J : Option (AuthorityCache Float) → Prop)
    (service : AuthorityService ω Float) : Prop where
  resolves : s.resolvesAuthority = true
  brought : ∃ c c', J c ∧ s.cache c = .ok c'
  options : ∃ o, s.lookupOptions = .ok o ∧ service = p.serviceOf o

/-- Runs on any kept rule files that have the rules of their contents end alike. -/
theorem rules_compares (static : p.Static reply file) (s : NodeSettings) :
    Action.Compares lax (BothKeep file J) Eq (p.rules s) (p.rules s) := by
  unfold rules
  refine Action.Compares.bind_eq ?_ fun config => .lift_self _
  refine (RuleFile.resolve_compares static.files _ _ _).onPart ?_ ?_
  · exact fun _ _ kept => ⟨kept.1.shelf, kept.2.shelf⟩
  · exact fun _ _ _ _ kept shelves => ⟨⟨shelves.1, kept.1.cache⟩, ⟨shelves.2, kept.2.cache⟩⟩

section Settings

/-- Bringing a cache in line with settings keeps a property. -/
def Brings (s : NodeSettings) (J : Option (AuthorityCache Float) → Prop) : Prop :=
  s.resolvesAuthority = true → ∀ c c', J c → s.cache c = .ok c' → J (some c')

def Fetches (p : Platform ω) (s : NodeSettings) (J : Option (AuthorityCache Float) → Prop) : Prop :=
  ∀ service, p.ServiceOf s J service → ∀ uri,
    Action.Ensures (fun outside : AuthorityState ω Float => J outside.cache) (fun _ => True)
      (service.recordOf uri)

/-- Two caches with a property are brought in line with settings alike. -/
def BringsAlike (s : NodeSettings) (J : Option (AuthorityCache Float) → Prop) : Prop :=
  s.resolvesAuthority = true → ∀ o, s.lookupOptions = .ok o → ∀ c c', J c → J c' →
    Checked.Agree (fun c c' => J (some c) ∧ J (some c')) (s.cache c) (s.cache c')

/-- Records are fetched alike with settings while what is kept has a property. -/
def FetchesAlike (p : Platform ω) (s : NodeSettings) (J : Option (AuthorityCache Float) → Prop) :
    Prop :=
  ∀ service, p.ServiceOf s J service → ∀ uri,
    Action.Compares False (AuthorityState.Related (fun _ _ => True) (BothKept J))
      (fun r r' => r.map (·.entries) = r'.map (·.entries)) (service.recordOf uri)
      (service.recordOf uri)

theorem authority_ensures (brings : Brings s J) :
    Action.Ensures (Keeps file J) (fun r => ∀ service, r = some service → p.ServiceOf s J service)
      (p.authority s) := by
  unfold authority
  cases resolves : s.resolvesAuthority with
  | false => exact .pure nofun
  | true =>
    refine (Action.Ensures.lift (Q := fun o => s.lookupOptions = .ok o) fun _ known => known).bind
      fun o known => ?_
    refine Action.Ensures.get.bind fun state kept => ?_
    refine (Action.Ensures.lift (Q := fun c => s.cache state.cache = .ok c) fun _ made => made).bind
      fun cache made => ?_
    have holds : J (some cache) := brings resolves state.cache cache kept.cache made
    refine (Action.Ensures.modify fun _ now => ⟨now.shelf, holds⟩).bind fun _ _ => .pure ?_
    intro service same
    exact ⟨resolves, ⟨state.cache, cache, kept.cache, made⟩, o, known, (Option.some.inj same).symm⟩

/-- Caches of two states are brought in line with settings alike. -/
theorem authority_compares (brought : BringsAlike s J) :
    Action.Compares False (BothKeep file J)
      (fun r r' => r = r' ∧ ∀ service, r = some service → p.ServiceOf s J service) (p.authority s)
      (p.authority s) := by
  unfold authority
  cases resolves : s.resolvesAuthority with
  | false => exact .pure ⟨rfl, nofun⟩
  | true =>
    cases known : s.lookupOptions with
    | error fault => exact .fault fault
    | ok o =>
      refine Action.Compares.bind (A := fun a a' => o = a ∧ o = a') (.lift (.ok ⟨rfl, rfl⟩)) ?_
      rintro _ _ ⟨rfl, rfl⟩
      refine Action.Compares.bind .get fun state state' kept => ?_
      have agreed := brought resolves o known state.cache state'.cache kept.1.cache
        kept.2.cache
      cases made : s.cache state.cache with
      | error fault =>
        rw [made] at agreed
        generalize s.cache state'.cache = made' at agreed
        cases agreed with
        | error => exact .fault fault
      | ok cache =>
        rw [made] at agreed
        generalize s.cache state'.cache = made' at agreed
        cases agreed with
        | @ok _ cache' holds =>
          refine Action.Compares.bind (A := fun a a' => cache = a ∧ cache' = a') (.pure ⟨rfl, rfl⟩) ?_
          rintro _ _ ⟨rfl, rfl⟩
          refine Action.Compares.bind (.modify fun _ _ now => ?_) fun _ _ _ => .pure ⟨rfl, ?_⟩
          · exact ⟨⟨now.1.shelf, holds.1⟩, ⟨now.2.shelf, holds.2⟩⟩
          · intro service same
            exact ⟨resolves, ⟨state.cache, cache, kept.1.cache, made⟩, o, known,
              (Option.some.inj same).symm⟩

/-- A transformation of a request keeps what fetching records keeps. -/
theorem transform_ensures (fetches : p.Fetches s J) {authority : Option (AuthorityService ω Float)}
    (made : ∀ service, authority = some service → p.ServiceOf s J service) (rules : RuleSet)
    (input : TransformInput) :
    Action.Ensures (Keeps file J) (fun _ => True)
      (ServiceState.onAuthority ((p.transformer s rules authority).transform input)) := by
  have records : ∀ service, authority = some service → ∀ uri,
      Action.Ensures (fun o => J o.cache) (fun _ => True) (service.recordOf uri) :=
    fun service present => fetches service (made service present)
  exact (Transformer.transform_ensures records input).onPart (fun _ kept => kept.cache)
    fun _ _ kept holds => ⟨kept.shelf, holds⟩

/-- Transformations of a request give the same when records are fetched alike. -/
theorem transform_compares (static : p.Static reply file) (fetched : p.FetchesAlike s J)
    {authority : Option (AuthorityService ω Float)}
    (made : ∀ service, authority = some service → p.ServiceOf s J service) (rules : RuleSet)
    (input : TransformInput) :
    Action.Compares False (BothKeep file J) Eq
      (ServiceState.onAuthority ((p.transformer s rules authority).transform input))
      (ServiceState.onAuthority ((p.transformer s rules authority).transform input)) := by
  have respects : (p.transformer s rules authority).builder.Respects False (fun _ _ => True)
      (BothKept J) := by
    refine ⟨fun service present uri => fetched service (made service present) uri, ?_⟩
    rintro fetch ⟨⟩ address
    exact Citation.documentAt_compares static.network _ address
  refine (Transformer.transform_compares_self respects input).onPart (fun _ _ kept => ?_)
    fun _ _ _ _ kept outside => ?_
  · exact ⟨trivial, kept.1.cache, kept.2.cache⟩
  · exact ⟨⟨kept.1.shelf, outside.cache.1⟩, ⟨kept.2.shelf, outside.cache.2⟩⟩

end Settings

section Requests

variable {event : Json}

theorem handle_eq (p : Platform ω) (event : Json) :
    p.handle event = (liftM event.settings >>= fun _ =>
      tryCatch (p.complete event) fun fault => pure (.ofFault fault)) := by
  funext s
  unfold handle
  cases event.settings with
  | error fault => rfl
  | ok members =>
    have read : (liftM (Except.ok members : Checked _) : Action (ServiceState ω) _) s
        = .ok members s := rfl
    rw [Action.bind_of_ok read, Action.bind_of_ok read]
    cases ran : p.complete event s with
    | ok r s' =>
      have completed : (p.complete event >>= fun r => ExceptT.run (pure r) :
          Action (ServiceState ω) (Except ServiceResponse ServiceResponse)) s = .ok (.ok r) s' :=
        Action.bind_of_ok ran
      rw [Action.tryCatch_of_ok ran, Action.bind_of_ok (Action.tryCatch_of_ok completed)]
      rfl
    | error fault s' =>
      have failed : (p.complete event >>= fun r => ExceptT.run (pure r) :
          Action (ServiceState ω) (Except ServiceResponse ServiceResponse)) s = .error fault s' :=
        Action.bind_of_error ran
      rw [Action.tryCatch_of_error ran,
        Action.bind_of_ok ((Action.tryCatch_of_error failed).trans rfl)]

theorem handle_ensures (static : p.Static reply file)
    (brings : ∀ s, NodeSettings.ofEvent p.environment event = .ok s → Brings s J)
    (fetches : ∀ s, NodeSettings.ofEvent p.environment event = .ok s → p.Fetches s J) :
    Action.Ensures (Keeps file J) (fun _ => True) (p.handle event) := by
  have completes : Action.Ensures (Keeps file J) (fun _ => True) (p.complete event) := by
    unfold complete
    refine (Action.Ensures.lift (Q := fun s => NodeSettings.ofEvent p.environment event = .ok s)
      fun _ read => read).bind fun s read => ?_
    refine (Action.Ensures.lift fun _ _ => trivial).bind fun data _ => ?_
    refine (rules_compares static s).ensures.bind fun rules _ => ?_
    refine (Action.Ensures.lift fun _ _ => trivial).bind fun root _ => ?_
    refine (Action.Ensures.lift fun _ _ => trivial).bind fun l _ => ?_
    refine (authority_ensures (brings s read)).bind fun authority made => ?_
    refine (transform_ensures (fetches s read) made rules _).bind fun result _ => ?_
    exact (Action.Ensures.lift fun _ _ => trivial).bind fun members _ => .pure trivial
  rw [handle_eq]
  refine (Action.Ensures.lift fun _ _ => trivial).bind fun _ _ => ?_
  exact completes.tryCatch fun _ => .pure trivial

/-- A request is answered alike in two states when its settings bring their caches in line alike
and its records are fetched alike. -/
theorem handle_compares (static : p.Static reply file)
    (brought : ∀ s, NodeSettings.ofEvent p.environment event = .ok s → BringsAlike s J)
    (fetched : ∀ s, NodeSettings.ofEvent p.environment event = .ok s → p.FetchesAlike s J) :
    Action.Compares False (BothKeep file J) Eq (p.handle event) (p.handle event) := by
  have completes : Action.Compares False (BothKeep file J) Eq (p.complete event)
      (p.complete event) := by
    unfold complete
    refine Action.Compares.bind (A := fun s s' => s = s'
      ∧ NodeSettings.ofEvent p.environment event = .ok s) (.lift ?_) ?_
    · cases NodeSettings.ofEvent p.environment event with
      | ok s => exact .ok ⟨rfl, rfl⟩
      | error fault => exact .error
    rintro s _ ⟨rfl, read⟩
    refine Action.Compares.bind_eq (.lift_self _) fun data => ?_
    refine Action.Compares.bind_eq (rules_compares static s) fun rules => ?_
    refine Action.Compares.bind_eq (.lift_self _) fun root => ?_
    refine Action.Compares.bind_eq (.lift_self _) fun l => ?_
    refine Action.Compares.bind (authority_compares (brought s read)) ?_
    rintro authority _ ⟨rfl, made⟩
    refine Action.Compares.bind_eq (transform_compares static (fetched s read) made rules _)
      fun result => ?_
    exact Action.Compares.bind_eq (.lift_self _) fun members => .pure rfl
  rw [handle_eq]
  refine Action.Compares.bind_eq (.lift_self _) fun _ => ?_
  exact completes.tryCatch fun _ => .pure rfl

/-- A request after others is answered as in a new process when what it needs of the kept records
holds of a new process and is kept by the requests before. -/
theorem handle_after_of (static : p.Static reply file) (none : J none) {earlier : List Json}
    (kept : ∀ e ∈ earlier, ∀ s, NodeSettings.ofEvent p.environment e = .ok s →
      Brings s J ∧ p.Fetches s J)
    (brought : ∀ s, NodeSettings.ofEvent p.environment event = .ok s → BringsAlike s J)
    (fetched : ∀ s, NodeSettings.ofEvent p.environment event = .ok s → p.FetchesAlike s J)
    (w w' : ω) :
    (p.handle event).outcome (p.handleAll earlier { world := w })
      = (p.handle event).outcome { world := w' } := by
  have start (w : ω) : Keeps file J { world := w } := ⟨RuleShelf.holds_empty, none⟩
  have run (s : ServiceState ω) (holds : Keeps file J s) : Keeps file J (p.handleAll earlier s) := by
    induction earlier generalizing s with
    | nil => exact holds
    | cons e earlier ih =>
      refine ih (fun later member => kept later (.tail _ member)) _ ?_
      refine (handle_ensures static (fun s read => ?_) fun s read => ?_).leaves holds
      · exact (kept e (.head _) s read).1
      · exact (kept e (.head _) s read).2
  exact ((handle_compares static brought fetched).outcome ⟨run _ (start w), start w'⟩).eq

end Requests

end Platform

namespace NodeSettings

/-- The settings of a request suit those of an earlier one that kept records: records are asked for
at the same addresses, at least once, and a new cache may have the lifetime. -/
structure Suits (asked kept : NodeSettings) : Prop where
  template : asked.template = kept.template
  attempts : 0 ≤ asked.retries
  lifetime : ¬ asked.cacheLifetime < 0.0

variable {s asked kept : NodeSettings} {c c' : Option (AuthorityCache Float)}
  {made : AuthorityCache Float} {o k : LookupOptions}

theorem cache_keeps {P : String → List (String × String) → Prop} (holds : KeptOnly P c)
    (brought : s.cache c = .ok made) : KeptOnly P (some made) := by
  rintro _ ⟨⟩
  cases c with
  | none =>
    have created : AuthorityCache.create s.cacheLifetime (Decimal.floatText s.cacheLifetime)
        s.cacheWarning = .ok made := brought
    unfold AuthorityCache.create at created
    split at created
    · cases created
    · cases created
      exact AuthorityCache.keepsOnly_of_empty rfl
  | some before =>
    cases brought
    exact holds before rfl

/-- A negative lifetime is refused only where no records are kept yet. -/
theorem cache_none_of_negative (lifetime : s.cacheLifetime < 0.0) :
    s.cache none = refuse (.negativeLifetime (Decimal.floatText s.cacheLifetime)) :=
  if_pos lifetime

theorem cache_agree (lifetime : ¬ s.cacheLifetime < 0.0) {P : String → List (String × String) → Prop}
    (holds : KeptOnly P c) (holds' : KeptOnly P c') :
    Checked.Agree (fun made made' => KeptOnly P (some made) ∧ KeptOnly P (some made')) (s.cache c)
      (s.cache c') := by
  have made (c : Option (AuthorityCache Float)) : ∃ made, s.cache c = .ok made := by
    cases c with
    | none => exact ⟨_, if_neg lifetime⟩
    | some before => exact ⟨_, rfl⟩
  obtain ⟨left, ran⟩ := made c
  obtain ⟨right, ran'⟩ := made c'
  rw [ran, ran']
  exact .ok ⟨cache_keeps holds ran, cache_keeps holds' ran'⟩

theorem eq_of_ofKind {kind : String} (read : LookupOptions.ofKind kind o = .ok k) : k = o := by
  unfold LookupOptions.ofKind at read
  split at read
  · cases read
  · obtain ⟨_, _, same⟩ := Checked.bind_ok read
    cases same
    rfl

/-- The template of the addresses, which must be a text. -/
def templateText (s : NodeSettings) : Checked (Option String) :=
  match s.template with
  | some v => some <$> v.asText
  | none => .ok none

def requests (s : NodeSettings) : LookupOptions where
  timeout := s.timeout
  retry := { retries := s.retries, firstPause := s.firstPause }

theorem lookupOptions_ok (read : s.lookupOptions = .ok o) :
    s.templateText = .ok o.template ∧ o.format = none ∧ o.retry.retries = s.retries := by
  unfold lookupOptions at read
  unfold templateText
  cases given : s.template with
  | none =>
    rw [given] at read
    have made : LookupOptions.ofKind "rest" { s.requests with template := none } = .ok o := read
    cases eq_of_ofKind made
    exact ⟨rfl, rfl, rfl⟩
  | some v =>
    rw [given] at read
    obtain ⟨template, text, made⟩ := Checked.bind_ok read
    have made : LookupOptions.ofKind "rest" { s.requests with template } = .ok o := made
    cases eq_of_ofKind made
    exact ⟨text, rfl, rfl⟩

/-- What is found with the settings of the earlier request is found with the suitable ones. -/
theorem Suits.finds {network : Web.Network ω} (suits : Suits asked kept)
    (static : network.Static reply) (world : ω) (known : asked.lookupOptions = .ok o)
    (known' : kept.lookupOptions = .ok k) {uri : String} {entries : List (String × String)}
    (finds : Finds (k.answer network world) uri entries) :
    Finds (o.answer network world) uri entries := by
  obtain ⟨text, format, retries⟩ := lookupOptions_ok known
  obtain ⟨text', format', -⟩ := lookupOptions_ok known'
  have template : o.template = k.template := by
    rw [templateText, suits.template, ← templateText, text'] at text
    exact (Except.ok.inj text).symm
  refine LookupOptions.Finds.transfer static world template (format.trans format'.symm) ?_ finds
  rw [retries]
  exact suits.attempts

end NodeSettings

namespace Platform

variable {s : NodeSettings} {o : LookupOptions}

/-- The settings of one request suit those of an earlier one, when both resolve identifiers. -/
def Follows (p : Platform ω) (event earlier : Json) : Prop :=
  ∀ asked kept, NodeSettings.ofEvent p.environment event = .ok asked →
    NodeSettings.ofEvent p.environment earlier = .ok kept → asked.resolvesAuthority = true →
    kept.resolvesAuthority = true → NodeSettings.Suits asked kept

theorem lookup_serviceOf (p : Platform ω) (o : LookupOptions) :
    (p.serviceOf o).lookup = o.lookup p.network := by
  rw [serviceOf]

theorem answers_serviceOf (static : p.Static reply file) (o : LookupOptions) (w : ω) :
    (p.serviceOf o).Answers (o.answer p.network w) := by
  intro uri
  rw [lookup_serviceOf]
  exact LookupOptions.gives_answer static.network o w uri

/-- The replies of two services, of which each knows another name. -/
def twoNames (address : String) : Web.Reply :=
  .ok { text :=
    if address = "http://a/http%3A%2F%2Fn" then "\x7b\"NORM_NAME\":\"Anna\"\x7d"
    else "\x7b\"NORM_NAME\":\"Berta\"\x7d" }

def twoServices : Platform Unit where
  network := { get := fun request w => (twoNames request.url, w), pause := fun _ w => w }
  files := { read := fun _ _ w => (.error "NoSuchKey", w) }
  now w := (0.0, w)
  environment _ := none

theorem twoServices_static : twoServices.Static twoNames fun _ _ => .error "NoSuchKey" :=
  ⟨fun _ _ => rfl, fun _ _ _ => rfl⟩

/-- A request that resolves one identifier at a service, with a lifetime of records in hours. -/
def nameRequest (template : String) (hours : Int) : Json :=
  .object [("payload", .object [("data", .object [
    ("document", .text "<r><n uri='http://n'/></r>"),
    ("node_config", .object [
      ("rules_config", .object [("fields", .object [("N", .object [
        ("xpaths", .array [.text "n"]),
        ("group_entity", .object [("subfields", .object [("NORM_URI", .text "@uri")])])])])]),
      ("authority_enabled", .bool true),
      ("authority_endpoint_template", .text template),
      ("authority_cache_ttl_hours", .int hours)])])])]

def valuesIn (name : String) : Checked ServiceResponse → List String
  | .ok r =>
    match lookup? "fields" r.body with
    | some (.array fields) => fields.filterMap fun
      | .object [(_, .text key), (_, .text value)] => if key = name then some value else none
      | _ => none
    | _ => []
  | .error _ => []

/-- Whether the settings of a request name a template, make an attempt and have a lifetime that is
not negative. -/
def names (template : String) (event : Json) : Bool :=
  match NodeSettings.ofEvent twoServices.environment event with
  | .ok s =>
    match s.template with
    | some (.text named) =>
      named == template && decide (0 ≤ s.retries) && !decide (s.cacheLifetime < 0.0)
    | _ => false
  | .error _ => false

theorem follows_of_names (template : String) {event earlier : Json}
    (named : names template event = true) (named' : names template earlier = true) :
    twoServices.Follows event earlier := by
  intro asked kept read read' _ _
  rw [names, read] at named
  rw [names, read'] at named'
  dsimp only at named named'
  split at named
  case h_2 => cases named
  case h_1 text given =>
    split at named'
    case h_2 => cases named'
    case h_1 text' given' =>
      simp only [Bool.and_eq_true, beq_iff_eq, decide_eq_true_eq, Bool.not_eq_true',
        decide_eq_false_iff_not] at named named'
      obtain ⟨⟨rfl, attempts⟩, lifetime⟩ := named
      obtain ⟨⟨rfl, -⟩, -⟩ := named'
      exact ⟨given.trans given'.symm, attempts, lifetime⟩

end Platform

end MetadataIndex
