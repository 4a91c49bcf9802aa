import StackKeeper.Config.Validation
import StackKeeper.Proofs.MutationGuard
import StackKeeper.Proofs.PassEnding
/-!
# What validation accepts

A configuration and a resource are accepted exactly if every rule is kept. The rules stand here apart
from their checks: a rule says when it is kept and what may be said when it is broken, a check finds
violations. What is reported of a refused subject is the first broken rule in their order, and what an
accepted one is warned of is what applies to it.

A resource that was accepted has a single template, so that no pass over its spec fails for want of
one.

Results:
* `flatMap_eq_nil_iff`, `firstBroken_of_flatMap`: what the findings of enforced rules say together.
* `violations_ofConfig_eq_nil`, `violations_ofResource_eq_nil`: nothing is found in what is usable.
* `lists_warnings_ofConfig`, `lists_warnings_ofResource`: the warnings are what there is to say.
* `accepts_exactly_usable`: acceptance, the reported rule, the warnings, and passes over what was
  accepted.
-/
namespace StackKeeper

theorem TextMap.contains_iff_mem_keys {m : TextMap} {k : String} :
    m.contains k = true ↔ k ∈ m.keys := by
  rw [contains, Option.isSome_iff_exists, keys, List.mem_map]
  constructor
  · rintro ⟨v, h⟩
    exact ⟨(k, v), mem_entries_iff.mpr h, rfl⟩
  · rintro ⟨e, he, rfl⟩
    exact ⟨e.2, mem_entries_iff.mp he⟩

namespace Findings

variable {f : Findings} {ws : List String} {e : Error}

theorem verdict_eq_ok_iff : f.verdict = .ok ws ↔ f.violations = [] ∧ f.warnings = ws := by
  rw [verdict]
  split <;> simp [*]

theorem verdict_eq_error_iff :
    f.verdict = .error e ↔ ∃ v rest, f.violations = v :: rest ∧ e = v.error := by
  rw [verdict]
  split
  · simp [*]
  · rename_i v rest h
    rw [h, Except.error.injEq]
    constructor
    · exact fun he => ⟨v, rest, rfl, he.symm⟩
    · rintro ⟨_, _, hv, rfl⟩
      cases hv
      rfl

end Findings

namespace Validation
open StackKeeper.Text

/-! ## Rules -/

/-- A rule about a subject: the field it is about, when it is kept, and what may be said when it is
broken. -/
structure Rule (α : Type) where
  field : String
  Kept : α → Prop
  Says : α → String → Prop

variable {α : Type} {x : α} {q : Rule α}

/-- The violation is of the first broken rule: those before it are kept. -/
inductive FirstBroken (x : α) : List (Rule α) → Violation → Prop
  | broken {q : Rule α} {rest : List (Rule α)} {reason : String} (hbroken : ¬ q.Kept x)
    (hsaid : q.Says x reason) : FirstBroken x (q :: rest) ⟨q.field, reason⟩
  | kept {q : Rule α} {rest : List (Rule α)} {v : Violation} (hkept : q.Kept x)
    (h : FirstBroken x rest v) : FirstBroken x (q :: rest) v

/-- What a check found enforces the rule: nothing if the rule is kept, else first what the rule says. -/
structure Enforces (x : α) (q : Rule α) (found : List Violation) : Prop where
  nil_iff : found = [] ↔ q.Kept x
  first : ∀ v rest, found = v :: rest → v.field = q.field ∧ q.Says x v.reason

section Together
variable {checks : List (Rule α × List Violation)}

theorem flatMap_eq_nil_iff (h : ∀ check ∈ checks, Enforces x check.1 check.2) :
    checks.flatMap (·.2) = [] ↔ ∀ q ∈ checks.map (·.1), q.Kept x := by
  rw [List.flatMap_eq_nil_iff, List.forall_mem_map]
  exact forall₂_congr fun check hmem => (h check hmem).nil_iff

theorem firstBroken_of_flatMap {v : Violation} {rest : List Violation}
    (h : ∀ check ∈ checks, Enforces x check.1 check.2) (hv : checks.flatMap (·.2) = v :: rest) :
    FirstBroken x (checks.map (·.1)) v := by
  induction checks with
  | nil => cases hv
  | cons check checks ih =>
    obtain ⟨hcheck, hchecks⟩ := List.forall_mem_cons.mp h
    rw [List.flatMap_cons] at hv
    cases hfound : check.2 with
    | nil =>
      rw [hfound, List.nil_append] at hv
      exact .kept (hcheck.nil_iff.mp hfound) (ih hchecks hv)
    | cons w found =>
      rw [hfound, List.cons_append] at hv
      cases hv
      obtain ⟨hfield, hsaid⟩ := hcheck.first _ _ hfound
      have hbroken : ¬ check.1.Kept x := fun hkept => by
        rw [hcheck.nil_iff.mpr hkept] at hfound
        cases hfound
      obtain ⟨field, reason⟩ := v
      cases hfield
      exact .broken hbroken hsaid

end Together

/-! ## The kinds of rules -/

/-- A rule that always says the same of a subject. -/
def plainRule (field : String) (Kept : α → Prop) (reason : α → String) : Rule α where
  field := field
  Kept := Kept
  Says x said := said = reason x

def intervalRule (field : String) (secs : α → Nat) : Rule α :=
  plainRule field (fun x => 0 < secs x) fun _ => "Interval must be greater than zero"

/-- Capabilities are known; of those that are not the first one is named. -/
def capabilityRule (field : String) (capabilities : α → List String) : Rule α where
  field := field
  Kept x := ∀ k ∈ capabilities x, k ∈ knownCapabilities
  Says x said := ∃ before k after, capabilities x = before ++ k :: after ∧
    (∀ j ∈ before, j ∈ knownCapabilities) ∧ k ∉ knownCapabilities ∧
      said = "Unknown capability '" ++ k ++ "'"

/-- Something is left of a tag key without the blanks at its ends. -/
def tagRule (field : String) (tags : α → TextMap) : Rule α :=
  plainRule field (fun x => ∀ k ∈ (tags x).keys, trim k ≠ "") fun _ => "Tag keys cannot be empty"

/-- The policy for a failed creation is known, if there is one. -/
def failurePolicyRule : Rule Resource where
  field := "spec.onFailure"
  Kept r := ∀ policy, r.spec.onFailure = some policy → policy ∈ knownFailurePolicies
  Says r said := ∃ policy, r.spec.onFailure = some policy ∧
    said = "Unknown on-failure policy '" ++ policy ++
      "', expected one of [\"DO_NOTHING\", \"ROLLBACK\", \"DELETE\"]"

theorem enforces_require {field : String} {Kept : α → Prop} {reason : α → String} {holds : Bool}
    (h : holds = true ↔ Kept x) :
    Enforces x (plainRule field Kept reason) (require holds field (reason x)) := by
  cases holds with
  | true => exact ⟨⟨fun _ => h.mp rfl, fun _ => rfl⟩, nofun⟩
  | false =>
    have hbroken : ¬ Kept x := fun hkept => Bool.false_ne_true (h.mpr hkept)
    refine ⟨⟨nofun, fun hkept => absurd hkept hbroken⟩, fun v rest hv => ?_⟩
    cases hv
    exact ⟨rfl, rfl⟩

theorem enforces_checkInterval (field : String) (secs : α → Nat) (x : α) :
    Enforces x (intervalRule field secs) (checkInterval field (secs x)) :=
  enforces_require (by simp [Nat.pos_iff_ne_zero])

theorem enforces_checkTags (field : String) (tags : α → TextMap) (x : α) :
    Enforces x (tagRule field tags) (checkTags field (tags x)) :=
  enforces_require (by simp [trim_eq_empty_iff])

theorem enforces_checkCapabilities (field : String) (capabilities : α → List String) (x : α) :
    Enforces x (capabilityRule field capabilities) (checkCapabilities field (capabilities x)) where
  nil_iff := by simp [checkCapabilities, capabilityRule, List.filter_eq_nil_iff]
  first v rest hv := by
    rw [checkCapabilities, List.map_eq_cons_iff] at hv
    obtain ⟨k, found, hfilter, rfl, -⟩ := hv
    obtain ⟨before, after, hsplit, hbefore, hk, -⟩ := List.filter_eq_cons_iff.mp hfilter
    exact ⟨rfl, before, k, after, hsplit, by simpa using hbefore, by simpa using hk, rfl⟩

theorem enforces_checkFailurePolicy (r : Resource) :
    Enforces r failurePolicyRule (checkFailurePolicy r.spec.onFailure) := by
  cases h : r.spec.onFailure with
  | none => exact ⟨by simp [checkFailurePolicy, failurePolicyRule, h], nofun⟩
  | some policy =>
    cases hk : knownFailurePolicies.contains policy with
    | true =>
      have hmem : policy ∈ knownFailurePolicies := List.contains_iff_mem.mp hk
      constructor
      · simp [checkFailurePolicy, failurePolicyRule, h, hmem, require]
      · intro v rest hv
        simp [checkFailurePolicy, hmem, require] at hv
    | false =>
      have hmem : policy ∉ knownFailurePolicies := by simpa using hk
      constructor
      · simp [checkFailurePolicy, failurePolicyRule, h, hmem, require]
      · intro v rest hv
        simp only [checkFailurePolicy, hk, require] at hv
        cases hv
        exact ⟨rfl, policy, h, rfl⟩

/-! ## The rules of configurations and resources -/

def configurationRules : List (Rule Config) :=
  [intervalRule "poll_interval_secs" Config.pollIntervalSecs,
    intervalRule "request_timeout_secs" Config.requestTimeoutSecs,
    intervalRule "resync_interval_secs" Config.resyncIntervalSecs,
    plainRule "hub_capacity" (fun c => 0 < c.hubCapacity)
      fun _ => "Follow queue capacity must be greater than zero",
    capabilityRule "default_capabilities" Config.defaultCapabilities,
    tagRule "default_tags" Config.defaultTags]

def resourceRules : List (Rule Resource) :=
  [plainRule "spec.template" (fun r => r.spec.HasOneTemplate)
      fun r => (Error.templateNotUnique r.locator.text).detail,
    capabilityRule "spec.capabilities" fun r => r.spec.capabilities,
    tagRule "spec.tags" fun r => r.spec.tags,
    plainRule "spec.parameters" (fun r => "" ∉ r.spec.parameters.keys)
      fun _ => "Parameter names cannot be empty",
    failurePolicyRule]

/-- Each rule of configurations with what its check finds. -/
def configurationChecks (c : Config) : List (Rule Config × List Violation) :=
  configurationRules.zip
    [checkInterval "poll_interval_secs" c.pollIntervalSecs,
      checkInterval "request_timeout_secs" c.requestTimeoutSecs,
      checkInterval "resync_interval_secs" c.resyncIntervalSecs,
      require (c.hubCapacity != 0) "hub_capacity" "Follow queue capacity must be greater than zero",
      checkCapabilities "default_capabilities" c.defaultCapabilities,
      checkTags "default_tags" c.defaultTags]

/-- Each rule of resources with what its check finds. -/
def resourceChecks (r : Resource) : List (Rule Resource × List Violation) :=
  resourceRules.zip
    [require r.spec.templateSource?.isSome "spec.template"
        (Error.templateNotUnique r.locator.text).detail,
      checkCapabilities "spec.capabilities" r.spec.capabilities,
      checkTags "spec.tags" r.spec.tags,
      require (!r.spec.parameters.keys.contains "") "spec.parameters"
        "Parameter names cannot be empty",
      checkFailurePolicy r.spec.onFailure]

theorem violations_ofConfig (c : Config) :
    (ofConfig c).violations = (configurationChecks c).flatMap (·.2) := by
  simp [ofConfig, configurationChecks, configurationRules]

theorem violations_ofResource (r : Resource) :
    (ofResource r).violations = (resourceChecks r).flatMap (·.2) := by
  simp [ofResource, resourceChecks, resourceRules]

theorem enforces_configurationChecks (c : Config) :
    ∀ check ∈ configurationChecks c, Enforces c check.1 check.2 := by
  simp only [configurationChecks, configurationRules, List.zip_cons_cons, List.zip_nil_right,
    List.forall_mem_cons]
  refine ⟨enforces_checkInterval _ _ c, enforces_checkInterval _ _ c, enforces_checkInterval _ _ c,
    enforces_require ?_, enforces_checkCapabilities _ _ c, enforces_checkTags _ _ c, nofun⟩
  simp [Nat.pos_iff_ne_zero]

theorem enforces_resourceChecks (r : Resource) :
    ∀ check ∈ resourceChecks r, Enforces r check.1 check.2 := by
  simp only [resourceChecks, resourceRules, List.zip_cons_cons, List.zip_nil_right,
    List.forall_mem_cons]
  refine ⟨enforces_require ?_, enforces_checkCapabilities _ _ r, enforces_checkTags _ _ r,
    enforces_require ?_, enforces_checkFailurePolicy r, nofun⟩
  · rw [Spec.hasOneTemplate_iff, Option.isSome_iff_exists]
  · simp

/-! ## What is accepted -/

/-- The configurations an operator can work with. -/
structure UsableConfig (c : Config) : Prop where
  polls : 0 < c.pollIntervalSecs
  waits : 0 < c.requestTimeoutSecs
  resyncs : 0 < c.resyncIntervalSecs
  queues : 0 < c.hubCapacity
  capabilities : ∀ k ∈ c.defaultCapabilities, k ∈ knownCapabilities
  tags : ∀ k ∈ c.defaultTags.keys, trim k ≠ ""

/-- The resources a stack can be made of. -/
structure UsableResource (r : Resource) : Prop where
  template : r.spec.HasOneTemplate
  capabilities : ∀ k ∈ r.spec.capabilities, k ∈ knownCapabilities
  tags : ∀ k ∈ r.spec.tags.keys, trim k ≠ ""
  parameters : "" ∉ r.spec.parameters.keys
  onFailure : ∀ policy, r.spec.onFailure = some policy → policy ∈ knownFailurePolicies

theorem usableConfig_iff_kept {c : Config} :
    UsableConfig c ↔ ∀ q ∈ configurationRules, q.Kept c := by
  simp only [configurationRules, List.forall_mem_cons]
  constructor
  · intro h
    exact ⟨h.polls, h.waits, h.resyncs, h.queues, h.capabilities, h.tags, nofun⟩
  · rintro ⟨hpoll, hwait, hresync, hqueue, hcapabilities, htags, -⟩
    exact ⟨hpoll, hwait, hresync, hqueue, hcapabilities, htags⟩

theorem usableResource_iff_kept {r : Resource} :
    UsableResource r ↔ ∀ q ∈ resourceRules, q.Kept r := by
  simp only [resourceRules, List.forall_mem_cons]
  constructor
  · intro h
    exact ⟨h.template, h.capabilities, h.tags, h.parameters, h.onFailure, nofun⟩
  · rintro ⟨htemplate, hcapabilities, htags, hparameters, honFailure, -⟩
    exact ⟨htemplate, hcapabilities, htags, hparameters, honFailure⟩

theorem violations_ofConfig_eq_nil {c : Config} : (ofConfig c).violations = [] ↔ UsableConfig c := by
  rw [violations_ofConfig, flatMap_eq_nil_iff (enforces_configurationChecks c),
    usableConfig_iff_kept]
  rfl

theorem violations_ofResource_eq_nil {r : Resource} :
    (ofResource r).violations = [] ↔ UsableResource r := by
  rw [violations_ofResource, flatMap_eq_nil_iff (enforces_resourceChecks r),
    usableResource_iff_kept]
  rfl

/-! ## Warnings -/

/-- What there is to say about tags: which of those that decide on ownership they set. -/
inductive WarnsOfTags (field : String) (m : TextMap) : String → Prop
  | reserved {k : String} (hk : k ∈ [controllerKey, ownerKey]) (hm : k ∈ m.keys) :
    WarnsOfTags field m (field ++ " sets reserved tag '" ++ k ++ "', which controls stack ownership")

/-- What there is to say about a configuration. -/
inductive WarnsOfConfig (c : Config) : String → Prop
  | impatient (h : c.requestTimeoutSecs < c.pollIntervalSecs) :
    WarnsOfConfig c "request_timeout_secs is shorter than poll_interval_secs"
  | tags {said : String} (h : WarnsOfTags "default_tags" c.defaultTags said) : WarnsOfConfig c said
  | rehearsal (h : c.dryRun = true) : WarnsOfConfig c "dry_run is enabled, no stack will be changed"

/-- The texts are those of the property, each once. -/
structure Lists (said : List String) (P : String → Prop) : Prop where
  once : said.Nodup
  mem_iff : ∀ text, text ∈ said ↔ P text

theorem mem_tagWarnings_iff {field text : String} {m : TextMap} :
    text ∈ tagWarnings field m ↔ WarnsOfTags field m text := by
  simp only [tagWarnings, List.mem_map, List.mem_filter, TextMap.contains_iff_mem_keys]
  constructor
  · rintro ⟨k, ⟨hk, hm⟩, rfl⟩
    exact .reserved hk hm
  · rintro ⟨hk, hm⟩
    exact ⟨_, ⟨hk, hm⟩, rfl⟩

/-- The warnings about tags when both are set. -/
def allTagWarnings (field : String) : List String :=
  [controllerKey, ownerKey].map fun k =>
    field ++ " sets reserved tag '" ++ k ++ "', which controls stack ownership"

theorem tagWarnings_sublist (field : String) (m : TextMap) :
    (tagWarnings field m).Sublist (allTagWarnings field) :=
  List.filter_sublist.map _

theorem ite_singleton_sublist {P : Prop} [Decidable P] (text : String) :
    (if P then [text] else []).Sublist [text] := by
  split <;> simp

theorem nodup_warnings_ofConfig (c : Config) : (ofConfig c).warnings.Nodup := by
  have hall : (["request_timeout_secs is shorter than poll_interval_secs"] ++
      allTagWarnings "default_tags" ++
      ["dry_run is enabled, no stack will be changed"]).Nodup := by decide
  exact hall.sublist (((ite_singleton_sublist _).append (tagWarnings_sublist _ _)).append
    (ite_singleton_sublist _))

theorem nodup_warnings_ofResource (r : Resource) : (ofResource r).warnings.Nodup := by
  have hall : (allTagWarnings "spec.tags").Nodup := by decide
  exact hall.sublist (tagWarnings_sublist _ _)

theorem lists_warnings_ofConfig {c : Config} (h : UsableConfig c) :
    Lists (ofConfig c).warnings (WarnsOfConfig c) where
  once := nodup_warnings_ofConfig c
  mem_iff text := by
    simp only [ofConfig, List.mem_append, mem_tagWarnings_iff, List.mem_ite_nil_right,
      List.mem_singleton, h.polls, h.waits, true_and]
    constructor
    · rintro ((⟨hlt, rfl⟩ | htags) | ⟨hdry, rfl⟩)
      · exact .impatient hlt
      · exact .tags htags
      · exact .rehearsal hdry
    · rintro (hlt | htags | hdry)
      · exact .inl (.inl ⟨hlt, rfl⟩)
      · exact .inl (.inr htags)
      · exact .inr ⟨hdry, rfl⟩

theorem lists_warnings_ofResource (r : Resource) :
    Lists (ofResource r).warnings (WarnsOfTags "spec.tags" r.spec.tags) :=
  ⟨nodup_warnings_ofResource r, fun _ => mem_tagWarnings_iff⟩

/-! ## Acceptance -/

/-- What a check of a subject says when the usable ones are those that keep the rules. -/
structure Judges {α : Type} (x : α) (rules : List (Rule α)) (Usable : Prop) (Warns : String → Prop)
    (verdict : Except Error (List String)) : Prop where
  accepts_iff : (∃ said, verdict = .ok said) ↔ Usable
  warned : ∀ said, verdict = .ok said → Lists said Warns
  refused : ∀ e, verdict = .error e → ∃ v, FirstBroken x rules v ∧ e = v.error

theorem judges_ofConfig (c : Config) :
    Judges c configurationRules (UsableConfig c) (WarnsOfConfig c) (ofConfig c).verdict where
  accepts_iff := by simp [Findings.verdict_eq_ok_iff, violations_ofConfig_eq_nil]
  warned said h := by
    obtain ⟨hnil, rfl⟩ := Findings.verdict_eq_ok_iff.mp h
    exact lists_warnings_ofConfig (violations_ofConfig_eq_nil.mp hnil)
  refused e h := by
    obtain ⟨v, rest, hv, rfl⟩ := Findings.verdict_eq_error_iff.mp h
    rw [violations_ofConfig] at hv
    exact ⟨v, firstBroken_of_flatMap (enforces_configurationChecks c) hv, rfl⟩

theorem judges_ofResource (r : Resource) :
    Judges r resourceRules (UsableResource r) (WarnsOfTags "spec.tags" r.spec.tags)
      (ofResource r).verdict where
  accepts_iff := by simp [Findings.verdict_eq_ok_iff, violations_ofResource_eq_nil]
  warned said h := by
    obtain ⟨-, rfl⟩ := Findings.verdict_eq_ok_iff.mp h
    exact lists_warnings_ofResource r
  refused e h := by
    obtain ⟨v, rest, hv, rfl⟩ := Findings.verdict_eq_error_iff.mp h
    rw [violations_ofResource] at hv
    exact ⟨v, firstBroken_of_flatMap (enforces_resourceChecks r) hv, rfl⟩

/-- A pass over a spec with one template that misses one was answered so by a call. -/
theorem failedWith_of_ran_template {p : Policy} {l : Locator} {stored : Resource} {rest : Log}
    {name : String} (hone : stored.spec.HasOneTemplate)
    (h : Job.Ran (Pass.reconcile p l) (Pass.readEvent l stored :: rest)
      (.error (.templateNotUnique name))) :
    Log.FailedWith (Pass.readEvent l stored :: rest) (.templateNotUnique name) := by
  rcases Pass.failure_of_passLog (Pass.passLog_of_ran h) with hcall | ⟨r, log, hlog, hnone, -⟩
  · exact hcall
  · obtain ⟨t, ht⟩ := Spec.hasOneTemplate_iff.mp hone
    cases hlog
    rw [ht] at hnone
    cases hnone

/-- Validation accepts a configuration and a resource exactly if they are usable, names the first
broken rule of those it refuses, and lists what there is to say about those it accepts. No pass that
reads the spec of an accepted resource fails for want of a template, unless a call was answered so. -/
theorem accepts_exactly_usable :
    (∀ c, Judges c configurationRules (UsableConfig c) (WarnsOfConfig c) (ofConfig c).verdict) ∧
    (∀ r, Judges r resourceRules (UsableResource r) (WarnsOfTags "spec.tags" r.spec.tags)
      (ofResource r).verdict) ∧
    ∀ (r : Resource) (said : List String), (ofResource r).verdict = .ok said →
      ∀ (p : Policy) (l : Locator) (stored : Resource) (rest : Log)
        (result : Except Error Outcome) (name : String), stored.spec = r.spec →
        Job.Ran (Pass.reconcile p l) (Pass.readEvent l stored :: rest) result →
        ¬ Log.FailedWith (Pass.readEvent l stored :: rest) (.templateNotUnique name) →
        result ≠ .error (.templateNotUnique name) := by
  refine ⟨judges_ofConfig, judges_ofResource, ?_⟩
  rintro r said hok p l stored rest result name hspec hran hcalls rfl
  have husable : UsableResource r := (judges_ofResource r).accepts_iff.mp ⟨said, hok⟩
  exact hcalls (failedWith_of_ran_template (hspec ▸ husable.template) hran)

/-- A resource that asks for two capabilities nobody knows. -/
def strayingResource : Resource :=
  { Pass.heldResource with
    spec := { Spec.empty with
      template := some "t", capabilities := ["CAPABILITY_IAM", "ALL", "NONE"] } }

theorem accepts_exactly_usable_held :
    UsableConfig Config.default ∧
    (∃ v, FirstBroken strayingResource resourceRules v ∧
      Error.invalidField (some "spec.capabilities") "Unknown capability 'ALL'" = v.error) ∧
    Job.Ran (Pass.reconcile Pass.plainPolicy Pass.heldResource.locator) Pass.recreatingLog
      (.ok .created) ∧
    (.ok .created : Except Error Outcome) ≠ .error (.templateNotUnique "default/web") := by
  have haccepted : (ofResource Pass.heldResource).verdict = .ok [] :=
    Findings.verdict_eq_ok_iff.mpr (by decide)
  have hrefused : (ofResource strayingResource).verdict =
      .error (.invalidField (some "spec.capabilities") "Unknown capability 'ALL'") :=
    Findings.verdict_eq_error_iff.mpr
      ⟨⟨"spec.capabilities", "Unknown capability 'ALL'"⟩,
        [⟨"spec.capabilities", "Unknown capability 'NONE'"⟩], by decide, rfl⟩
  have hcalls : ¬ Log.FailedWith Pass.recreatingLog (.templateNotUnique "default/web") := by
    rintro ⟨c, hc, hmem⟩
    cases c <;> simp_all [Pass.recreatingLog, Call.failed, Call.canFail, Pass.readEvent,
      Pass.lookUpEvent, Pass.creation]
  exact ⟨(accepts_exactly_usable.1 Config.default).accepts_iff.mp
      ⟨[], Findings.verdict_eq_ok_iff.mpr (by decide)⟩,
    (accepts_exactly_usable.2.1 strayingResource).refused _ hrefused, Pass.ran_recreatingLog,
    accepts_exactly_usable.2.2 _ _ haccepted _ _ _ _ _ _ rfl Pass.ran_recreatingLog hcalls⟩

end Validation
end StackKeeper
