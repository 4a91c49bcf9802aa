import Mathlib.Data.List.Induction
import StackKeeper.Cli.Session
import StackKeeper.Proofs.StoredDocument
import StackKeeper.Proofs.TreeShape
/-!
# The nearest configuration file

The search for a configuration file drops one component of its path after another. Read from the root,
the path of a directory leads through all directories above it that way. Read from the working
directory it leads up to that one at most, and written as a point it leads nowhere else: the search
that commands make never looks above the working directory.

Results:
* `visits_prefixes`: the paths that the search visits are all there are.
* `climbs_of_ascends`: a search along paths that lead up finds the nearest configuration file.
* `climbs_of_isPlace`, `climbs_here`: from any path of names, and from a point.
* `climbs_from_here_iff`: when the search from a point finds the nearest file of all above.
* `configuration_above_missed`: a configuration file in the directory above that is not found.
-/
namespace StackKeeper

namespace Path

variable {p q wd : Path} {c : String}

/-! ## Dropping components -/

/-- Dropping components one after another visits the paths, up to one that has none to drop. -/
inductive Visits : Path → List Path → Prop
  | last {p : Path} (h : p.dropped? = none) : Visits p [p]
  | next {p q : Path} {ps : List Path} (h : p.dropped? = some q) (hq : Visits q ps) :
    Visits p (p :: ps)

theorem length_withoutDots_le (p : Path) : p.withoutDots.length ≤ p.length := by
  have hreverse : p.reverse.length = p.length := List.length_reverse
  rw [withoutDots, List.length_reverse, ← hreverse]
  exact (List.dropWhile_sublist _).length_le

theorem length_dropped? (h : p.dropped? = some q) : q.length < p.length := by
  rw [dropped?] at h
  have hle := length_withoutDots_le p
  split at h
  · split at h
    · cases h
    · rename_i hp
      cases h
      exact List.length_pos_iff.mpr hp
  · rename_i core hcore
    split at h
    · cases h
    · have hlt : p.withoutDots.dropLast.length < p.withoutDots.length := by
        rw [List.length_dropLast]
        exact Nat.sub_lt (List.length_pos_iff.mpr hcore) Nat.one_pos
      have hdots := length_withoutDots_le p.withoutDots.dropLast
      cases h
      split
      · rename_i hrest
        have := List.length_pos_iff.mpr hrest.1
        simp only [List.length_singleton]
        omega
      · omega

theorem visits_prefixesFrom {n : Nat} (h : p.length < n) : Visits p (prefixesFrom n p) := by
  induction n generalizing p with
  | zero => cases h
  | succ n ih =>
    rw [prefixesFrom]
    cases hd : p.dropped? with
    | none => exact .last hd
    | some q => exact .next hd (ih (by have := length_dropped? hd; omega))

/-- The bound on the number of components that are dropped cuts nothing off. -/
theorem visits_prefixes (p : Path) : Visits p p.prefixes := visits_prefixesFrom (by omega)

theorem withoutDots_concat (hc : c ≠ here) : withoutDots (p ++ [c]) = p ++ [c] := by
  simp [withoutDots, hc]

theorem withoutDots_of_not_mem (h : here ∉ p) : p.withoutDots = p := by
  rcases List.eq_nil_or_concat p with rfl | ⟨q, c, rfl⟩
  · rfl
  · rw [List.concat_eq_append] at h ⊢
    exact withoutDots_concat fun hc => h (by simp [hc])

/-- Without points the last component is dropped, except for the root. -/
theorem dropped?_concat (h : here ∉ p ++ [c]) (hroot : p ++ [c] ≠ [root]) :
    dropped? (p ++ [c]) = some p := by
  have hp : here ∉ p := fun hmem => h (List.mem_append_left _ hmem)
  rw [dropped?, withoutDots_of_not_mem h]
  split
  · rename_i hnil
    simp at hnil
  · rw [if_neg hroot, List.dropLast_concat]
    dsimp only
    rw [withoutDots_of_not_mem hp, if_neg fun hnil => hnil.1 hnil.2]

/-- How far up the search from a path can get: to the root, or to where the path is read from. -/
def top (wd p : Path) : Path := if p.head? = some root then [root] else wd

theorem under_concat (wd : Path) (h : p ++ [c] ≠ [root]) :
    wd.under (p ++ [c]) = wd.under p ++ [c] ∧ wd.top (p ++ [c]) = wd.top p := by
  cases p with
  | nil =>
    have hc : c ≠ root := fun hc => h (by rw [hc]; rfl)
    simp [under, top, hc]
  | cons b p =>
    by_cases hb : b = root <;> simp [under, top, hb]

/-- Unless it is empty or the root, a path without points loses its last component, and so does the
directory it leads to. -/
theorem dropped?_cases (wd : Path) (h : here ∉ p) :
    (p.dropped? = none ∧ wd.top p = wd.under p) ∨
      ∃ q c, p.dropped? = some q ∧ wd.under p = wd.under q ++ [c] ∧ wd.top p = wd.top q := by
  rcases List.eq_nil_or_concat p with rfl | ⟨q, c, rfl⟩
  · exact .inl ⟨rfl, by simp [top, under]⟩
  · rw [List.concat_eq_append] at h ⊢
    by_cases hroot : q ++ [c] = [root]
    · rw [hroot]
      exact .inl ⟨rfl, rfl⟩
    · obtain ⟨hunder, htop⟩ := under_concat wd hroot
      exact .inr ⟨q, c, dropped?_concat h hroot, hunder, htop⟩

theorem mem_under (wd : Path) (h : c ∈ p) : c ∈ wd.under p := by
  rw [under]
  split
  · exact h
  · exact List.mem_append_right _ h

theorem length_resolve_le (start p : Path) : (resolve start p).length ≤ start.length + p.length := by
  fun_induction resolve start p with
  | case1 start => exact Nat.le_refl _
  | case2 start rest ih =>
    rw [List.length_cons]
    omega
  | case3 start rest hdot ih =>
    have habove : (above start).length ≤ start.length := by
      rw [above]
      split <;> simp
    rw [List.length_cons]
    omega
  | case4 start c rest hdot hdots ih =>
    rw [List.length_append, List.length_singleton] at ih
    rw [List.length_cons]
    omega

end Path

namespace FileTree
open StackKeeper.Path

variable {t : FileTree} {d wd : Path} {c : String}

/-- Whether the path is that of a directory by the names on the way to it. -/
def IsPlace (t : FileTree) (d : Path) : Prop := t.follow [] d = .ok d

/-- The directory above is a place too, and the last component is a name. -/
theorem IsPlace.of_concat (h : t.IsPlace (d ++ [c])) : t.IsPlace d ∧ c ≠ here ∧ c ≠ ".." := by
  have hself : resolve (resolve [] d) [c] = d ++ [c] := by
    rw [← resolve_append]
    exact (eq_resolve_of_follow h).symm
  have hlength : (resolve (resolve [] d) [c]).length = d.length + 1 := by
    rw [hself, List.length_append, List.length_singleton]
  have hle : (resolve [] d).length ≤ d.length := by simpa using length_resolve_le [] d
  have hdot : c ≠ here := by
    rintro rfl
    rw [resolve, if_pos (show here = "." from rfl), resolve] at hlength
    omega
  have hdots : c ≠ ".." := by
    rintro rfl
    have habove : (resolve (resolve [] d) [".."]).length ≤ (resolve [] d).length := by
      rw [resolve, if_neg (by decide), if_pos rfl, resolve, above]
      split <;> simp
    omega
  rw [resolve_single hdot hdots] at hself
  have hd : resolve [] d = d := (List.append_inj' hself rfl).1
  exact ⟨(follow_of_append h).trans (by rw [hd]), hdot, hdots⟩

theorem IsPlace.here_not_mem (h : t.IsPlace d) : here ∉ d := by
  induction d using List.reverseRecOn with
  | nil => exact List.not_mem_nil
  | append_singleton d c ih =>
    obtain ⟨hd, hdot, -⟩ := h.of_concat
    simpa using ⟨ih hd, hdot.symm⟩

end FileTree

namespace Config
open FileTree StackKeeper.Path

variable {files : FileTree} {wd q d dir top : Path} {c name path : String} {starts rest : List Path}

/-! ## Configuration files of a directory -/

def HasFile (files : FileTree) (d : Path) (name : String) : Prop :=
  files.entryAt? (d ++ [name]) ≠ none

/-- Whether there is a configuration file in the directory. -/
def HasOne (files : FileTree) (d : Path) : Prop := ∃ name ∈ fileNames, HasFile files d name

/-- The name is that of a configuration file in the directory, and none of a preferred name is there. -/
def Prefers (files : FileTree) (d : Path) (name : String) : Prop :=
  ∃ before after, fileNames = before ++ name :: after ∧ HasFile files d name ∧
    ∀ other ∈ before, ¬ HasFile files d other

theorem Prefers.hasOne (h : Prefers files d name) : HasOne files d := by
  obtain ⟨before, after, hnames, hfile, -⟩ := h
  exact ⟨name, hnames ▸ by simp, hfile⟩

/-- The first configuration file seen from the paths. -/
def scan (files : FileTree) (wd : Path) (starts : List Path) : Option Path :=
  (starts.flatMap fun q => fileNames.map fun name => q ++ [name]).find? fun p =>
    files.isThere (wd.under p)

theorem scan_cons (files : FileTree) (wd q : Path) (rest : List Path) :
    scan files wd (q :: rest) = (scan files wd [q]).or (scan files wd rest) := by
  simp [scan, List.find?_append]

theorem isOrdinary_of_mem_fileNames (h : name ∈ fileNames) :
    IsOrdinary name ∧ isName name = true ∧ name ≠ root := by
  simp only [fileNames, List.mem_cons, List.not_mem_nil, or_false] at h
  rcases h with rfl | rfl <;> exact ⟨⟨by decide, by decide, by decide⟩, by decide, by decide⟩

/-- Seen from a path to a directory, a configuration file is what the directory has of its name. -/
theorem locate_candidate (h : files.follow [] (wd.under q) = .ok d) (hn : name ∈ fileNames) :
    files.locate (wd.under (q ++ [name])) = .ok (d ++ [name]) := by
  obtain ⟨ho, hname, hroot⟩ := isOrdinary_of_mem_fileNames hn
  have hunder : wd.under (q ++ [name]) = wd.under q ++ [name] := by
    refine (under_concat wd fun hq => ?_).1
    cases q with
    | nil => exact hroot (List.cons.inj hq).1
    | cons b q => simp at hq
  have hparent : parent (wd.under q ++ [name]) = wd.under q := List.dropLast_concat
  have hfile : fileName (wd.under q ++ [name]) = name := by simp [fileName]
  rw [hunder, locate_of_follow (by rw [hparent]; exact h) (by rw [hfile]; exact ho), hfile,
    if_pos hname]

theorem isThere_candidate (h : files.follow [] (wd.under q) = .ok d) (hn : name ∈ fileNames) :
    files.isThere (wd.under (q ++ [name])) = true ↔ HasFile files d name := by
  simp only [isThere, find, locate_candidate h hn, HasFile]
  cases files.entryAt? (d ++ [name]) <;> simp [Except.toBool]

/-- From a single path the preferred configuration file of its directory is found. -/
theorem scan_single (h : files.follow [] (wd.under q) = .ok d) :
    (∃ name, scan files wd [q] = some (q ++ [name]) ∧ name ∈ fileNames ∧ Prefers files d name) ∨
      (scan files wd [q] = none ∧ ¬ HasOne files d) := by
  have hscan : scan files wd [q] =
      (fileNames.find? fun name => files.isThere (wd.under (q ++ [name]))).map (q ++ [·]) := by
    rw [scan, List.flatMap_singleton, List.find?_map]
    rfl
  rw [hscan]
  cases hfound : fileNames.find? fun name => files.isThere (wd.under (q ++ [name])) with
  | none =>
    refine .inr ⟨rfl, ?_⟩
    rintro ⟨name, hn, hfile⟩
    exact List.find?_eq_none.mp hfound name hn ((isThere_candidate h hn).mpr hfile)
  | some name =>
    have hn : name ∈ fileNames := List.mem_of_find?_eq_some hfound
    obtain ⟨hthere, before, after, hnames, hbefore⟩ := List.find?_eq_some_iff_append.mp hfound
    refine .inl ⟨name, rfl, hn, before, after, hnames, (isThere_candidate h hn).mp hthere,
      fun other hother hfile => ?_⟩
    have hmem : other ∈ fileNames := hnames ▸ List.mem_append_left _ hother
    have hnot := hbefore other hother
    rw [(isThere_candidate h hmem).mpr hfile] at hnot
    cases hnot

/-! ## Climbing -/

/-- The configuration file of the directory is the nearest one on the way up to the top. -/
structure Nearest (files : FileTree) (top dir d : Path) (name : String) : Prop where
  below : top <+: d
  above : d <+: dir
  preferred : Prefers files d name
  nearest : ∀ d', d <+: d' → d' <+: dir → d' ≠ d → ¬ HasOne files d'

/-- The answer of a search that finds the nearest configuration file on the way from a directory up to
the top, and reports that there is none exactly if no directory on the way has one. -/
inductive Climbs (files : FileTree) (wd top dir : Path) : Except Error Path → Prop
  | found {p d : Path} {name : String} (hp : files.locate (wd.under p) = .ok (d ++ [name]))
    (h : Nearest files top dir d name) : Climbs files wd top dir (.ok p)
  | missing {path : String} (h : ∀ d, top <+: d → d <+: dir → ¬ HasOne files d) :
    Climbs files wd top dir (.error (.configNotFound path))

/-- The paths lead to a directory and on to those above it, up to the top. The same one can be met
again. -/
inductive Ascends (files : FileTree) (wd top : Path) : Path → List Path → Prop
  | last {q : Path} (h : files.follow [] (wd.under q) = .ok top) : Ascends files wd top top [q]
  | again {q dir : Path} {rest : List Path} (h : files.follow [] (wd.under q) = .ok dir)
    (hrest : Ascends files wd top dir rest) : Ascends files wd top dir (q :: rest)
  | up {q dir : Path} {c : String} {rest : List Path}
    (h : files.follow [] (wd.under q) = .ok (dir ++ [c])) (hrest : Ascends files wd top dir rest) :
    Ascends files wd top (dir ++ [c]) (q :: rest)

theorem Ascends.top_prefix (h : Ascends files wd top dir starts) : top <+: dir := by
  induction h with
  | last h => exact List.prefix_rfl
  | again h hrest ih => exact ih
  | up h hrest ih => exact ih.trans (List.prefix_append _ _)

/-- What a search answers that has found something or not. -/
def answer (path : String) : Option Path → Except Error Path
  | some p => .ok p
  | none => .error (.configNotFound path)

theorem locate_eq_answer (files : FileTree) (wd start : Path) :
    Config.locate files wd start =
      answer (start ++ fileNames.take 1).text (scan files wd start.prefixes) := by
  rw [Config.locate, search, candidates, scan]
  split <;> simp [answer, *]

/-- A configuration file of the directory itself is the nearest one. -/
theorem nearest_self (htop : top <+: dir) (h : Prefers files dir name) :
    Nearest files top dir dir name where
  below := htop
  above := List.prefix_rfl
  preferred := h
  nearest _ hd hdir hne := absurd (hdir.eq_of_length_le hd.length_le) hne

/-- Without a configuration file in the directory, the nearest one is that of the directory above. -/
theorem Climbs.up {found : Except Error Path} (hnone : ¬ HasOne files (dir ++ [c]))
    (h : Climbs files wd top dir found) : Climbs files wd top (dir ++ [c]) found := by
  cases h with
  | found hp hnearest =>
    refine .found hp ⟨hnearest.below, hnearest.above.trans (List.prefix_append _ _),
      hnearest.preferred, fun d' hd hdir hne => ?_⟩
    rcases List.prefix_concat_iff.mp hdir with rfl | hdir
    · exact hnone
    · exact hnearest.nearest d' hd hdir hne
  | missing hmissing =>
    refine .missing fun d' htop hdir => ?_
    rcases List.prefix_concat_iff.mp hdir with rfl | hdir
    · exact hnone
    · exact hmissing d' htop hdir

/-- What the first path leads to is looked at first, and only if it has no configuration file the
rest. -/
theorem climbs_cons (hq : files.follow [] (wd.under q) = .ok dir) (htop : top <+: dir)
    (hrest : ¬ HasOne files dir → Climbs files wd top dir (answer path (scan files wd rest))) :
    Climbs files wd top dir (answer path (scan files wd (q :: rest))) := by
  rw [scan_cons]
  rcases scan_single hq with ⟨name, hscan, hn, hprefers⟩ | ⟨hscan, hnone⟩
  · rw [hscan]
    exact .found (locate_candidate hq hn) (nearest_self htop hprefers)
  · rw [hscan]
    exact hrest hnone

/-- A search along paths that lead up finds the nearest configuration file. -/
theorem climbs_of_ascends (path : String) (h : Ascends files wd top dir starts) :
    Climbs files wd top dir (answer path (scan files wd starts)) := by
  induction h with
  | last h =>
    refine climbs_cons h List.prefix_rfl fun hnone => .missing fun d htop hd => ?_
    exact hd.eq_of_length_le htop.length_le ▸ hnone
  | again h hrest ih => exact climbs_cons h hrest.top_prefix fun _ => ih
  | up h hrest ih =>
    exact climbs_cons h (hrest.top_prefix.trans (List.prefix_append _ _)) fun hnone => ih.up hnone

/-! ## Where a search starts -/

/-- Dropping components of a path of names leads up. -/
theorem ascends_of_visits (h : q.Visits starts) (hplace : files.IsPlace (wd.under q)) :
    Ascends files wd (wd.top q) (wd.under q) starts := by
  induction h with
  | last h =>
    have hdots : here ∉ _ := fun hmem => hplace.here_not_mem (mem_under wd hmem)
    rcases dropped?_cases wd hdots with ⟨-, htop⟩ | ⟨p, c, hsome, -⟩
    · rw [htop]
      exact .last hplace
    · cases h.symm.trans hsome
  | next h hq ih =>
    have hdots : here ∉ _ := fun hmem => hplace.here_not_mem (mem_under wd hmem)
    rcases dropped?_cases wd hdots with ⟨hnone, -⟩ | ⟨p, c, hsome, hunder, htop⟩
    · cases h.symm.trans hnone
    · cases h.symm.trans hsome
      rw [hunder] at hplace ⊢
      rw [htop]
      exact .up (hunder ▸ hplace) (ih hplace.of_concat.1)

/-- From a path of names the search climbs, up to the root or to where the path is read from. -/
theorem climbs_of_isPlace {start : Path} (h : files.IsPlace (wd.under start)) :
    Climbs files wd (wd.top start) (wd.under start) (Config.locate files wd start) := by
  rw [locate_eq_answer]
  exact climbs_of_ascends _ (ascends_of_visits start.visits_prefixes h)

/-- From a point the search meets the working directory twice and nothing else. -/
theorem climbs_here (h : files.IsPlace wd) :
    Climbs files wd wd wd (Config.locate files wd [here]) := by
  have hhere : files.follow [] (wd.under [here]) = .ok wd := by
    show files.follow [] (wd ++ [here]) = .ok wd
    rw [follow_append h]
    rfl
  have hempty : files.follow [] (wd.under []) = .ok wd := by
    show files.follow [] (wd ++ []) = .ok wd
    rw [List.append_nil]
    exact h
  rw [locate_eq_answer]
  exact climbs_of_ascends _ (.again hhere (.last hempty))

/-- The search from a path ends, whatever the path is. From a point, it finds the nearest configuration
file of the working directory and all directories above it exactly if the working directory has one
itself or none of them has one; in all other cases it misses the nearest one. From the path of the
working directory it finds the nearest one always. -/
theorem climbs_from_here_iff (hroot : wd.head? = some root) (hwd : files.IsPlace wd) :
    (∀ start : Path, start.Visits start.prefixes) ∧
      (Climbs files wd [root] wd (Config.locate files wd [here]) ↔
        HasOne files wd ∨ ∀ d, [root] <+: d → d <+: wd → ¬ HasOne files d) ∧
      Climbs files wd [root] wd (Config.locate files wd wd) := by
  have hunder : wd.under wd = wd := if_pos hroot
  have hprefix : [root] <+: wd := by
    cases wd with
    | nil => cases hroot
    | cons c wd =>
      cases hroot
      simp
  refine ⟨visits_prefixes, ?_, ?_⟩
  · have hhere := climbs_here hwd
    generalize Config.locate files wd [here] = found at hhere
    cases hhere with
    | found hp hnearest =>
      have hd := hnearest.above.eq_of_length_le hnearest.below.length_le
      subst hd
      exact ⟨fun _ => .inl hnearest.preferred.hasOne,
        fun _ => .found hp (nearest_self hprefix hnearest.preferred)⟩
    | missing hmissing =>
      have hnone : ¬ HasOne files wd := hmissing wd List.prefix_rfl List.prefix_rfl
      constructor
      · intro h
        cases h with
        | missing hall => exact .inr hall
      · rintro (hone | hall)
        · exact absurd hone hnone
        · exact .missing hall
  · have htop : wd.top wd = [root] := if_pos hroot
    have hplace : files.IsPlace (wd.under wd) := hunder.symm ▸ hwd
    have hclimbs := climbs_of_isPlace hplace
    rwa [htop, hunder] at hclimbs

/-! ## A file in the directory above -/

/-- A directory with a configuration file and a directory without one in it. -/
def nestedFiles : FileTree :=
  ⟨[(["/", "work", "stack-operator.yaml"], .file "state_dir: state\n"),
    (["/", "work", "sub"], .directory), (["/", "work"], .directory)]⟩

theorem hasFile_work : HasFile nestedFiles ["/", "work"] "stack-operator.yaml" := by
  rw [HasFile]
  decide

theorem climbs_from_work :
    Climbs nestedFiles ["/", "work"] ["/"] ["/", "work"]
      (Config.locate nestedFiles ["/", "work"] [here]) := by
  have hplace : nestedFiles.IsPlace ["/", "work"] := rfl
  exact (climbs_from_here_iff rfl hplace).2.1.mpr
    (.inl ⟨"stack-operator.yaml", by decide, hasFile_work⟩)

def innerSession : Session where
  files := nestedFiles
  directory := ["/", "work", "sub"]
  environment := []
  now := Store.leapSecond
  uid := "uid-1"

/-- The file of the directory above is the nearest one, and no file is found. -/
theorem configuration_above_missed :
    let s := innerSession
    Nearest s.files [root] s.directory ["/", "work"] "stack-operator.yaml" ∧
      s.configurationFile none = .error (.configNotFound "./stack-operator.yaml") ∧
      ¬ Climbs s.files s.directory [root] s.directory
        (Config.locate s.files s.directory [here]) := by
  intro s
  have hnone : ¬ HasOne s.files ["/", "work", "sub"] := by
    rintro ⟨name, hn, hfile⟩
    simp only [fileNames, List.mem_cons, List.not_mem_nil, or_false] at hn
    rcases hn with rfl | rfl <;> exact hfile rfl
  have hlocate : Config.locate s.files s.directory [here] =
      .error (.configNotFound "./stack-operator.yaml") := by decide
  have hnearest : Nearest s.files [root] s.directory ["/", "work"] "stack-operator.yaml" := by
    refine ⟨by decide, by decide, ⟨[], _, rfl, hasFile_work, nofun⟩, fun d' hd hdir hne => ?_⟩
    have hsub : d' = ["/", "work", "sub"] := by
      rcases List.prefix_concat_iff.mp (show d' <+: ["/", "work"] ++ ["sub"] from hdir) with h | h
      · exact h
      · exact absurd (h.eq_of_length_le hd.length_le) hne
    exact hsub ▸ hnone
  refine ⟨hnearest, ?_, fun hclimbs => ?_⟩
  · rw [Session.configurationFile, hlocate]
    rfl
  · rw [hlocate] at hclimbs
    cases hclimbs with
    | missing hall => exact hall _ hnearest.below hnearest.above hnearest.preferred.hasOne

end Config
end StackKeeper
