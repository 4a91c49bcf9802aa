import StackKeeper.Proofs.InstantText
import StackKeeper.Proofs.JsonText
import StackKeeper.Resource.Document
/-!
# A resource reads back from its document

What the store writes for a resource is what it reads again, field for field: unset fields and an
empty list of finalizers are left out and come back as their defaults, and a map keeps all its
entries. The one bound is that of the generation, which is read as a 64-bit number.

Results:
* `ofText?_text`, `ofText?_compact`: a resource with a generation in range reads back from its document,
  whether that was written with line breaks or without.
-/
namespace StackKeeper

theorem TextMap.ofList_entries (m : TextMap) : TextMap.ofList m.entries = m :=
  TextMap.ext fun k => by
    rw [TextMap.ofList, TextMap.get?_insertAll _ m.sorted, TextMap.get?_empty, Option.or_none]
    rfl

namespace Document
open Record Json

/-! ## Values -/

theorem text?_str (s : String) : text? (Json.str s) = some s := rfl

theorem optional?_str {α : Type} (read : Json → Option α) (s : String) :
    optional? read (Json.str s) = (read (.str s)).map some := rfl

theorem instant?_text (t : Instant) : instant? (Json.str t.text) = some t := by
  rw [instant?, text?_str, Option.bind_some, Instant.ofText?_text]

theorem list?_ofTexts (l : List String) : list? text? (Json.ofTexts l) = some l := by
  show (l.map Json.str).mapM text? = some l
  induction l with
  | nil => rfl
  | cons s l ih => simp [List.mapM_cons, text?_str, ih]

theorem textMap?_ofTextMap (m : TextMap) : textMap? (ofTextMap m) = some m := by
  have h : (m.entries.map fun e => (e.1, Json.str e.2)).mapM
      (fun e : String × Json => (text? e.2).map fun v => (e.1, v)) = some m.entries := by
    induction m.entries with
    | nil => rfl
    | cons e l ih => simp [List.mapM_cons, text?_str, ih]
  show (((m.entries.map fun e => (e.1, Json.str e.2)).mapM
    (fun e : String × Json => (text? e.2).map fun v => (e.1, v))).map TextMap.ofList) = some m
  rw [h, Option.map_some, TextMap.ofList_entries]

theorem natural?_int {bound n : Nat} (h : n < bound) : natural? bound (Json.int n) = some n := by
  have hn : ¬ ((n : Int) < 0) := by omega
  show Option.filter (· < bound) (if (n : Int) < 0 then none else some (n : Int).toNat) = some n
  simp [hn, h]

/-! ## Fields -/

def fieldOf (entries : List (String × Json)) (name : String) : Option Json :=
  (entries.find? fun e => e.1 == name).map (·.2)

theorem fields?_obj {declared : List String} {entries : List (String × Json)}
    (hd : declared.Nodup) (hk : (entries.map (·.1)).Sublist declared) :
    fields? declared (Json.obj entries) = some (fieldOf entries) := by
  have hn : noneTwice declared (entries.map (·.1)) = true := by
    rw [noneTwice, List.all_eq_true]
    intro f _
    have hcount := List.nodup_iff_count.mp (hd.sublist hk) f
    rw [List.count_eq_length_filter] at hcount
    exact decide_eq_true hcount
  show (if noneTwice declared (entries.map (·.1)) = true then _ else none) = _
  rw [if_pos hn]
  rfl

theorem fieldOf_nil (name : String) : fieldOf [] name = none := rfl

theorem fieldOf_cons (k name : String) (j : Json) (l : List (String × Json)) :
    fieldOf ((k, j) :: l) name = if k = name then some j else fieldOf l name := by
  by_cases h : k = name <;> simp [fieldOf, h]

theorem fieldOf_append (l m : List (String × Json)) (name : String) :
    fieldOf (l ++ m) name = (fieldOf l name).or (fieldOf m name) := by
  rw [fieldOf, List.find?_append, Option.map_or]
  rfl

theorem fieldOf_optionalField (k name : String) (o : Option String) :
    fieldOf (optionalField k o) name = if k = name then o.map Json.str else none := by
  cases o with
  | none => simp [optionalField, fieldOf]
  | some s => by_cases h : k = name <;> simp [optionalField, fieldOf, h]

theorem fieldOf_optionalTime (k name : String) (o : Option Instant) :
    fieldOf (optionalTime k o) name = if k = name then o.map fun t => .str t.text else none := by
  rw [optionalTime, fieldOf_optionalField, Option.map_map]
  rfl

theorem keys_optionalField (k : String) (o : Option String) :
    ((optionalField k o).map (·.1)).Sublist [k] := by
  cases o <;> simp [optionalField]

theorem keys_optionalTime (k : String) (o : Option Instant) :
    ((optionalTime k o).map (·.1)).Sublist [k] := keys_optionalField k _

theorem default?_eq_elim {α : Type} (f : String → Option Json) (name : String) (absent : α)
    (read : Json → Option α) : default? f name absent read = (f name).elim (some absent) read := by
  rw [default?]
  cases f name <;> rfl

theorem elim_optionalText (o : Option String) :
    o.elim (some none) (optional? text? ∘ Json.str) = some o := by
  cases o <;> rfl

theorem elim_optionalTime (o : Option Instant) :
    o.elim (some none) (optional? instant? ∘ fun t => Json.str t.text) = some o := by
  cases o with
  | none => rfl
  | some t => simp [optional?_str, instant?_text]

/-! ## Records -/

theorem member?_ofMember (m : Member) : member? (ofMember m) = some m := by
  obtain ⟨logicalId, physicalId, kind, status, reason⟩ := m
  have hk : ((([("logicalId", Json.str logicalId)] ++ optionalField "physicalId" physicalId ++
      [("resourceType", Json.str kind), ("status", Json.str status)] ++
      optionalField "statusReason" reason).map (·.1))).Sublist
      ["logicalId", "physicalId", "resourceType", "status", "statusReason"] := by
    simp only [List.map_append]
    exact (((List.Sublist.refl _).append (keys_optionalField _ _)).append (.refl _)).append
      (keys_optionalField _ _)
  rw [member?, ofMember, fields?_obj (by decide) hk]
  simp [fieldOf_append, fieldOf_cons, fieldOf_optionalField, required?,
    default?_eq_elim, elim_optionalText, text?_str]

theorem list?_members (l : List Member) : list? member? (Json.arr (l.map ofMember)) = some l := by
  show (l.map ofMember).mapM member? = some l
  induction l with
  | nil => rfl
  | cons m l ih => simp [List.mapM_cons, member?_ofMember, ih]

theorem metadata?_ofMetadata {m : Metadata} (h : m.generation ≤ maxGeneration) :
    metadata? (ofMetadata m) = some m := by
  obtain ⟨name, ns, uid, generation, created, deletion, finalizers⟩ := m
  have hk : (([("name", Json.str name), ("namespace", .str ns), ("uid", .str uid),
      ("generation", .int generation)] ++ optionalTime "creationTimestamp" created ++
      optionalTime "deletionTimestamp" deletion ++
      (if finalizers.isEmpty then [] else [("finalizers", Json.ofTexts finalizers)])).map
        (·.1)).Sublist ["name", "namespace", "uid", "generation", "creationTimestamp",
      "deletionTimestamp", "finalizers"] := by
    simp only [List.map_append]
    refine (((List.Sublist.refl _).append (keys_optionalTime _ _)).append
      (keys_optionalTime _ _)).append (?_ : List.Sublist _ ["finalizers"])
    cases finalizers <;> simp
  rw [metadata?, ofMetadata, fields?_obj (by decide) hk]
  cases finalizers with
  | nil =>
    simp [fieldOf_append, fieldOf_cons, fieldOf_optionalTime, required?,
      default?_eq_elim, elim_optionalTime, text?_str, natural?_int (Nat.lt_succ_of_le h)]
  | cons f l =>
    simp [fieldOf_append, fieldOf_cons, fieldOf_nil, fieldOf_optionalTime, required?,
      default?_eq_elim, elim_optionalTime, text?_str, natural?_int (Nat.lt_succ_of_le h),
      list?_ofTexts]

theorem spec?_ofSpec (s : Spec) : spec? (ofSpec s) = some s := by
  obtain ⟨stackName, template, templateUrl, parameters, tags, capabilities, role, notifications,
    onFailure⟩ := s
  have hk : ((optionalField "stackName" stackName ++ optionalField "template" template ++
      optionalField "templateUrl" templateUrl ++
      [("parameters", ofTextMap parameters), ("tags", ofTextMap tags),
        ("capabilities", Json.ofTexts capabilities)] ++
      optionalField "roleArn" role ++ [("notificationArns", Json.ofTexts notifications)] ++
      optionalField "onFailure" onFailure).map (·.1)).Sublist
      ["stackName", "template", "templateUrl", "parameters", "tags", "capabilities", "roleArn",
        "notificationArns", "onFailure"] := by
    simp only [List.map_append]
    exact ((((((keys_optionalField _ _).append (keys_optionalField _ _)).append
      (keys_optionalField _ _)).append (.refl _)).append (keys_optionalField _ _)).append
      (.refl _)).append (keys_optionalField _ _)
  rw [spec?, ofSpec, fields?_obj (by decide) hk]
  simp [fieldOf_append, fieldOf_cons, fieldOf_optionalField, default?_eq_elim,
    elim_optionalText, textMap?_ofTextMap, list?_ofTexts]

theorem status?_ofStatus (s : Status) : status? (ofStatus s) = some s := by
  obtain ⟨stackId, stackStatus, created, updated, outputs, role, members, appliedHash⟩ := s
  have hk : (([("stackId", Json.str stackId), ("stackStatus", .str stackStatus)] ++
      optionalTime "createdTime" created ++ optionalTime "updatedTime" updated ++
      [("outputs", ofTextMap outputs), ("roleArn", .str role),
        ("resources", .arr (members.map ofMember)), ("appliedSpecHash", .str appliedHash)]).map
        (·.1)).Sublist ["stackId", "stackStatus", "createdTime", "updatedTime", "outputs",
      "roleArn", "resources", "appliedSpecHash"] := by
    simp only [List.map_append]
    exact (((List.Sublist.refl _).append (keys_optionalTime _ _)).append
      (keys_optionalTime _ _)).append (.refl _)
  rw [status?, ofStatus, fields?_obj (by decide) hk]
  simp [fieldOf_append, fieldOf_cons, fieldOf_nil, fieldOf_optionalTime, default?_eq_elim,
    elim_optionalTime, text?_str, textMap?_ofTextMap, list?_members]

theorem resource?_ofResource {r : Resource} (h : r.metadata.generation ≤ maxGeneration) :
    resource? (ofResource r) = some r := by
  have hk : ([("metadata", ofMetadata r.metadata), ("spec", ofSpec r.spec),
      ("status", ofStatus r.status)].map (·.1)).Sublist ["metadata", "spec", "status"] := .refl _
  rw [resource?, ofResource, fields?_obj (by decide) hk]
  simp [fieldOf_cons, required?, default?_eq_elim, metadata?_ofMetadata h, spec?_ofSpec,
    status?_ofStatus]

/-! ## Texts -/

theorem hasPlainFields_append {l m : List (String × Json)} :
    HasPlainFields (l ++ m) ↔ HasPlainFields l ∧ HasPlainFields m := by
  induction l with
  | nil => simp [HasPlainFields]
  | cons f l ih => rw [List.cons_append, HasPlainFields, HasPlainFields, ih, and_assoc]

theorem hasPlainFields_optionalField (k : String) (o : Option String) :
    HasPlainFields (optionalField k o) := by
  cases o <;> simp [optionalField, HasPlainFields, IsPlain]

theorem isPlain_ofTexts (l : List String) : (Json.ofTexts l).IsPlain := by
  show ArePlain (l.map Json.str)
  induction l with
  | nil => trivial
  | cons s l ih => exact ⟨trivial, ih⟩

theorem isPlain_ofTextMap (m : TextMap) : (ofTextMap m).IsPlain := by
  show HasPlainFields (m.entries.map fun e => (e.1, Json.str e.2))
  induction m.entries with
  | nil => trivial
  | cons e l ih => exact ⟨trivial, ih⟩

theorem isPlain_ofMetadata (m : Metadata) : (ofMetadata m).IsPlain := by
  have hfinalizers : HasPlainFields (if m.finalizers = [] then []
      else [("finalizers", Json.ofTexts m.finalizers)]) := by
    split
    · trivial
    · exact ⟨isPlain_ofTexts _, trivial⟩
  simp [ofMetadata, IsPlain, hasPlainFields_append, HasPlainFields, optionalTime,
    hasPlainFields_optionalField, hfinalizers]

theorem isPlain_ofSpec (s : Spec) : (ofSpec s).IsPlain := by
  simp [ofSpec, IsPlain, hasPlainFields_append, HasPlainFields, hasPlainFields_optionalField,
    isPlain_ofTextMap, isPlain_ofTexts]

theorem isPlain_ofMember (m : Member) : (ofMember m).IsPlain := by
  simp [ofMember, IsPlain, hasPlainFields_append, HasPlainFields, hasPlainFields_optionalField]

theorem isPlain_ofStatus (s : Status) : (ofStatus s).IsPlain := by
  have hmembers : ArePlain (s.members.map ofMember) := by
    induction s.members with
    | nil => trivial
    | cons m l ih => exact ⟨isPlain_ofMember m, ih⟩
  simp [ofStatus, IsPlain, hasPlainFields_append, HasPlainFields, optionalTime,
    hasPlainFields_optionalField, isPlain_ofTextMap, hmembers]

theorem isPlain_ofResource (r : Resource) : (ofResource r).IsPlain :=
  ⟨isPlain_ofMetadata _, isPlain_ofSpec _, isPlain_ofStatus _, trivial⟩

/-- The store reads what it wrote. -/
theorem ofText?_text {r : Resource} (h : r.metadata.generation ≤ maxGeneration) :
    ofText? (text r) = some r := by
  rw [ofText?, text, Json.ofText?_pretty (isPlain_ofResource r), Option.bind_some,
    resource?_ofResource h]

/-- A resource that is shown on one line reads back just as well. -/
theorem ofText?_compact {r : Resource} (h : r.metadata.generation ≤ maxGeneration) :
    ofText? (ofResource r).compact = some r := by
  rw [ofText?, Json.ofText?_compact (isPlain_ofResource r), Option.bind_some, resource?_ofResource h]

end Document
end StackKeeper
