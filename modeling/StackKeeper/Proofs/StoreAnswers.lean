import StackKeeper.Proofs.ListedDocuments
/-!
# What a locator is answered

A plain locator is answered from what is at three places: the base directory, the directory of its
namespace and the document itself. When files elsewhere change, two of these can be among them: a
directory can appear where the document of another namespace would be, and a file where a
namespace would be. So a locator whose document is left alone is answered as before, unless one of
these is in its way, and then it was and is answered that nothing is found or that it cannot be
read.

Results:
* `get_eq_answer`: the answer from what is at the three places.
* `get_of_alters`: how the answer can change when the document does not.
* `file?_of_alters`, `isListed_iff_of_alters`: the document and the listing do not change then.
-/
namespace StackKeeper

namespace Store
open FileTree StackKeeper.Path

variable {s s' : Store} {l m : Locator} {names : List String}

/-! ## Where a document is looked for -/

/-- The name under which the document of a plain locator is written first. -/
def temporaryOf (l : Locator) : String :=
  (splitExtension (documentName l)).1 ++ "." ++ temporaryExtension

theorem temporaryName_documentPath (h : l.IsPlain) (base : Path) :
    temporaryName (documentPath base l) = temporaryOf l := by
  rw [temporaryName, fileName_documentPath h, temporaryOf]

theorem temporaryOf_ne_fileName (m : Locator) (base : Path) (l : Locator) :
    temporaryOf m ≠ (documentPath base l).fileName :=
  temporaryName_ne_fileName [documentName m] base l

/-- No document has the place of a temporary file. -/
theorem place_ne_temporaryOf (base dir : Path) (m l : Locator) :
    place base l ≠ dir ++ [temporaryOf m] := place_ne_temporary dir [documentName m] l

theorem get_of_read_eq (hbase : s'.base = s.base)
    (h : s'.files.read (documentPath s.base l) = s.files.read (documentPath s.base l)) :
    s'.get l = s.get l := by
  rw [get, get, hbase, h]

/-- What a plain locator is answered, from what is at the base directory, at the directory of its
namespace and at the place of its document, whose path is given. -/
def answer (path : Path) (l : Locator) (base directory document : Option FileEntry) :
    Except Error Resource :=
  if base = none then .error (.resourceNotFound l.text)
  else if isName l.ns = false then .error (unreadable path (unnameable l.ns))
  else
    match directory with
    | none => .error (.resourceNotFound l.text)
    | some .directory =>
      if isName (documentName l) = false then
        .error (unreadable path (unnameable (documentName l)))
      else
        match document with
        | none => .error (.resourceNotFound l.text)
        | some (.file text) =>
          match Document.ofText? text with
          | some r => .ok r
          | none => .error (corrupted path)
        | some .directory => .error (unreadable path .isDirectory)
        | some .binary => .error (unreadable path .notText)
    | some _ => .error (unreadable path .notDirectory)

theorem get_of_follow_missing (hl : l.IsPlain)
    (hf : s.files.follow [] (s.base ++ single l.ns) = .error .missing) :
    s.get l = .error (.resourceNotFound l.text) := by
  rw [← parent_documentPath hl] at hf
  simp only [get, FileTree.read, FileTree.find, locate, hf]

theorem get_of_follow_refused {why : Refusal} (hl : l.IsPlain)
    (hf : s.files.follow [] (s.base ++ single l.ns) = .error (.refused why)) :
    s.get l = .error (unreadable (documentPath s.base l) why) := by
  rw [← parent_documentPath hl] at hf
  simp only [get, FileTree.read, FileTree.find, locate, hf]

theorem get_of_isName_false {dir : Path} (hl : l.IsPlain)
    (hf : s.files.follow [] (s.base ++ single l.ns) = .ok dir)
    (hn : isName (documentName l) = false) :
    s.get l = .error (unreadable (documentPath s.base l) (unnameable (documentName l))) := by
  rw [← parent_documentPath hl] at hf
  have hlocate := locate_of_follow hf (isOrdinary_fileName_documentPath s.base l)
  rw [fileName_documentPath hl, hn, if_neg (by simp)] at hlocate
  simp only [get, FileTree.read, FileTree.find, hlocate]

/-- Once the directory of its namespace is there, a locator is answered by its document. -/
theorem get_of_follow_namespace (hl : l.IsPlain)
    (hf : s.files.follow [] (s.base ++ single l.ns) = .ok (namespaceDirectory s.base l))
    (hns : isName l.ns = true) {base : FileEntry} :
    s.get l =
      answer (documentPath s.base l) l (some base) (some .directory)
        (s.files.entryAt? (place s.base l)) := by
  cases hn : isName (documentName l) with
  | false =>
    rw [get_of_isName_false hl hf hn]
    simp [answer, hns, hn]
  | true =>
    rw [get_of_hasRoom hl ⟨hf, hn⟩]
    cases s.files.entryAt? (place s.base l) with
    | none => simp [answer, hns, hn]
    | some e =>
      cases e with
      | directory | binary => simp [answer, hns, hn]
      | file text => cases hd : Document.ofText? text <;> simp [answer, hns, hn, hd]

theorem get_eq_answer (hs : s.IsGrounded) (hl : l.IsPlain) :
    s.get l =
      answer (documentPath s.base l) l (s.files.entryAt? (resolve [] s.base))
        (s.files.entryAt? (namespaceDirectory s.base l)) (s.files.entryAt? (place s.base l)) := by
  rcases hs.anchored with hf | ⟨hf, hnone⟩
  · have hbase := entryAt?_of_follow hs.tree rfl hf
    have hparts := follow_append hf (single l.ns)
    rw [hbase, namespaceDirectory]
    by_cases hns : l.ns = ""
    · rw [single, if_pos hns, List.append_nil, hbase]
      refine get_of_follow_namespace hl ?_ (by rw [hns]; decide)
      rw [hparts, namespaceDirectory, single, if_pos hns, List.append_nil]
      rfl
    · rw [single, if_neg hns] at hparts ⊢
      rw [follow, if_neg hl.2.2.1, if_neg hl.2.2.2] at hparts
      cases hn : isName l.ns with
      | false =>
        rw [hn, if_pos (by simp)] at hparts
        rw [get_of_follow_refused hl (by rw [single, if_neg hns, hparts])]
        simp [answer, hn]
      | true =>
        rw [hn, if_neg (by simp)] at hparts
        cases he : s.files.entryAt? (resolve [] s.base ++ [l.ns]) with
        | none =>
          rw [he] at hparts
          rw [get_of_follow_missing hl (by rw [single, if_neg hns, hparts])]
          simp [answer, hn]
        | some e =>
          rw [he] at hparts
          by_cases hd : e = .directory
          · subst hd
            refine get_of_follow_namespace hl ?_ hn
            rw [single, if_neg hns, hparts, namespaceDirectory, single, if_neg hns]
            rfl
          · have hrefused : s.get l =
                .error (unreadable (documentPath s.base l) .notDirectory) := by
              refine get_of_follow_refused hl ?_
              rw [single, if_neg hns, hparts]
              cases e <;> first | exact absurd rfl hd | rfl
            rw [hrefused]
            cases e <;> first | exact absurd rfl hd | simp [answer, hn]
  · rw [get_of_follow_missing hl (follow_append_error hf _), hnone]
    rfl

/-! ## How an answer changes -/

/-- Whether a locator is answered that nothing can be found, or that its document cannot be read. -/
def IsAbsent (path : Path) (l : Locator) (x : Except Error Resource) : Prop :=
  x = .error (.resourceNotFound l.text) ∨ ∃ why, x = .error (unreadable path why)

/-- Whether what a write to one locator makes can be in the way of another one: the name of the other
one does not fit into a directory, or its document would be where the directory of the namespace
is, or its namespace would be where one of the given files is. -/
def Hides (names : List String) (m l : Locator) : Prop :=
  isName l.ns = false ∨ isName (documentName l) = false ∨
    (l.ns = "" ∧ documentName l = m.ns) ∨ (m.ns = "" ∧ l.ns ∈ names)

theorem isAbsent_answer {path : Path} {b n e : Option FileEntry}
    (h : isName l.ns = false ∨ isName (documentName l) = false ∨ n ≠ some .directory ∨
      e = none ∨ e = some .directory) :
    IsAbsent path l (answer path l b n e) := by
  unfold answer IsAbsent
  grind

/-- As long as names fit, a document that is missing is answered so whether its directory is there or
not. -/
theorem answer_of_missing {path : Path} {b n : Option FileEntry} (hns : isName l.ns ≠ false)
    (hname : isName (documentName l) ≠ false) (hn : n = none ∨ n = some .directory) :
    answer path l b n none = .error (.resourceNotFound l.text) := by
  unfold answer
  rw [if_neg hns]
  obtain rfl | rfl := hn
  · exact ite_self _
  · rw [if_neg hname]
    exact ite_self _

theorem answer_cases {path : Path} {names : List String} {b b' n n' e e' : Option FileEntry}
    (hb : b' = b ∨ (b = none ∧ b' = some .directory))
    (hn : n' = n ∨ (n = none ∧ n' = some .directory) ∨
      (m.ns = "" ∧ l.ns ∈ names ∧ n ≠ some .directory ∧ n' ≠ some .directory))
    (he : e' = e ∨ (e = none ∧ e' = some .directory ∧ l.ns = "" ∧ documentName l = m.ns))
    (hbn : b = none → n = none) (hne : n ≠ some .directory → e = none) :
    answer path l b' n' e' = answer path l b n e ∨
      (Hides names m l ∧ IsAbsent path l (answer path l b n e) ∧
        IsAbsent path l (answer path l b' n' e')) := by
  by_cases hns : isName l.ns = false
  · exact .inr ⟨.inl hns, isAbsent_answer (.inl hns), isAbsent_answer (.inl hns)⟩
  by_cases hname : isName (documentName l) = false
  · exact .inr ⟨.inr (.inl hname), isAbsent_answer (.inr (.inl hname)),
      isAbsent_answer (.inr (.inl hname))⟩
  obtain he | ⟨hnone, hd, hplace⟩ := he
  swap
  · exact .inr ⟨.inr (.inr (.inl hplace)), isAbsent_answer (by simp [hnone]),
      isAbsent_answer (by simp [hd])⟩
  obtain hn | ⟨hnone, hd⟩ | ⟨hempty, hmem, hno, hno'⟩ := hn
  · obtain hb | ⟨hnone, -⟩ := hb
    · rw [hb, hn, he]
      exact .inl rfl
    · -- Without a base directory there was nothing, and there is no more now.
      have hgone := hbn hnone
      rw [he, hn, hne (by simp [hgone]), answer_of_missing hns hname (.inl hgone),
        answer_of_missing hns hname (.inl hgone)]
      exact .inl rfl
  · rw [he, hne (by simp [hnone]), answer_of_missing hns hname (.inr hd),
      answer_of_missing hns hname (.inl hnone)]
    exact .inl rfl
  · exact .inr ⟨.inr (.inr (.inr ⟨hempty, hmem⟩)), isAbsent_answer (.inr (.inr (.inl hno))),
      isAbsent_answer (.inr (.inr (.inl hno')))⟩

theorem place_eq (base : Path) (l : Locator) :
    place base l = resolve [] base ++ single l.ns ++ [documentName l] := rfl

theorem length_single_le (c : String) : (single c).length ≤ 1 := by
  unfold single
  split <;> simp

/-- A directory that is made on the way to a namespace has the place of a document in one way. -/
theorem of_place_leads {base : Path} (h : place base l <+: namespaceDirectory base m) :
    l.ns = "" ∧ documentName l = m.ns := by
  rw [place_eq, namespaceDirectory, List.append_assoc, List.prefix_append_right_inj] at h
  have hlength := h.length_le
  have hle := length_single_le m.ns
  rw [List.length_append, List.length_singleton] at hlength
  have hns : single l.ns = [] := List.eq_nil_of_length_eq_zero (by omega)
  rw [hns, List.nil_append] at h
  unfold single at hns h
  split at hns
  · rename_i hempty
    refine ⟨hempty, ?_⟩
    split at h
    · simp at h
    · simpa using h
  · cases hns

/-- A file in the directory of one namespace has the place of that of another one in one way. -/
theorem of_namespaceDirectory_eq {base : Path} {name : String}
    (h : namespaceDirectory base l = namespaceDirectory base m ++ [name]) :
    m.ns = "" ∧ l.ns = name := by
  rw [namespaceDirectory, namespaceDirectory, List.append_assoc, List.append_cancel_left_eq] at h
  have hle := length_single_le l.ns
  have hlength := congrArg List.length h
  rw [List.length_append, List.length_singleton] at hlength
  have hns : single m.ns = [] := List.eq_nil_of_length_eq_zero (by omega)
  rw [hns, List.nil_append] at h
  unfold single at hns h
  split at hns
  · rename_i hempty
    refine ⟨hempty, ?_⟩
    split at h
    · cases h
    · exact (List.cons.inj h).1
  · cases hns

/-- How the answer to a plain locator can change when its document is none of the files that do. -/
theorem get_of_alters (hs : s.IsGrounded) (hs' : s'.IsGrounded) (hbase : s'.base = s.base)
    (h : Alters (namespaceDirectory s.base m) names s.files s'.files) (hl : l.IsPlain)
    (hplace : ∀ name ∈ names, place s.base l ≠ namespaceDirectory s.base m ++ [name]) :
    s'.get l = s.get l ∨
      (Hides names m l ∧ IsAbsent (documentPath s.base l) l (s.get l) ∧
        IsAbsent (documentPath s.base l) l (s'.get l)) := by
  rw [get_eq_answer hs hl, get_eq_answer hs' hl, hbase]
  refine answer_cases ?_ ?_ ?_ ?_ ?_
  · rcases h (resolve [] s.base) with he | ⟨hnone, hd, -⟩ | ⟨⟨name, -, hname⟩, -⟩
    · exact .inl he
    · exact .inr ⟨hnone, hd⟩
    · have hlength := congrArg List.length hname
      simp [namespaceDirectory] at hlength
  · rcases h (namespaceDirectory s.base l) with
      he | ⟨hnone, hd, -⟩ | ⟨⟨name, hmem, hname⟩, hno, hno'⟩
    · exact .inl he
    · exact .inr (.inl ⟨hnone, hd⟩)
    · obtain ⟨hns, rfl⟩ := of_namespaceDirectory_eq hname
      exact .inr (.inr ⟨hns, hmem, hno, hno'⟩)
  · rcases h (place s.base l) with he | ⟨hnone, hd, hway⟩ | ⟨⟨name, hmem, hname⟩, -⟩
    · exact .inl he
    · exact .inr ⟨hnone, hd, of_place_leads hway⟩
    · exact absurd hname (hplace name hmem)
  · exact fun hnone => hs.tree.none_of_prefix hnone (List.prefix_append _ _)
  · intro hno
    cases he : s.files.entryAt? (place s.base l) with
    | none => rfl
    | some e =>
      have hdirectory := hs.tree.lies _ _ he
      rw [place, List.dropLast_concat] at hdirectory
      exact absurd hdirectory hno

/-- The file at the place of a document, whether it can be read or not. -/
def file? (s : Store) (l : Locator) : Option FileEntry :=
  (s.files.entryAt? (place s.base l)).filter (· ≠ .directory)

theorem file?_of_alters (hbase : s'.base = s.base)
    (h : Alters (namespaceDirectory s.base m) names s.files s'.files)
    (hplace : ∀ name ∈ names, place s.base l ≠ namespaceDirectory s.base m ++ [name]) :
    s'.file? l = s.file? l := by
  rw [file?, file?, hbase]
  rcases h (place s.base l) with he | ⟨hnone, hd, -⟩ | ⟨⟨name, hmem, hname⟩, -⟩
  · rw [he]
  · rw [hnone, hd]
    rfl
  · exact absurd hname (hplace name hmem)

/-- Where nothing was found there is no file. -/
theorem file?_of_notFound (hs : s.IsGrounded) (hl : l.IsPlain)
    (h : s.get l = .error (.resourceNotFound l.text)) : s.file? l = none := by
  rw [file?]
  cases he : s.files.entryAt? (place s.base l) with
  | none => rfl
  | some e =>
    have hdirectory := hs.tree.lies _ _ he
    have hbase : s.files.entryAt? (resolve [] s.base) ≠ none := by
      intro hnone
      have hway : resolve [] s.base <+: place s.base l := by
        rw [place_eq, List.append_assoc]
        exact List.prefix_append _ _
      rw [hs.tree.none_of_prefix hnone hway] at he
      cases he
    rw [place, List.dropLast_concat] at hdirectory
    rw [get_eq_answer hs hl, hdirectory, he] at h
    unfold answer unreadable failed corrupted at h
    grind

theorem isListed_iff_of_alters (hbase : s'.base = s.base)
    (h : Alters (namespaceDirectory s.base m) names s.files s'.files)
    (hplace : ∀ name ∈ names, place s.base l ≠ namespaceDirectory s.base m ++ [name]) :
    s'.IsListed l ↔ s.IsListed l := by
  unfold IsListed
  rw [hbase]
  refine and_congr_right fun _ => and_congr_right fun hns => ?_
  rcases h (place s.base l) with he | ⟨-, -, hway⟩ | ⟨⟨name, hmem, hname⟩, -⟩
  · rw [he]
  · exact absurd (of_place_leads hway).1 hns
  · exact absurd hname (hplace name hmem)

end Store
end StackKeeper
