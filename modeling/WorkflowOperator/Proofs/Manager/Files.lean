import WorkflowOperator.Manager.Files
import WorkflowOperator.Proofs.Manager.Entrypoint
import WorkflowOperator.Proofs.Template.Rendering

/-!
# The manager's files, all or none

There are files for the manager if every stage assembles and the entrypoint is made. Otherwise the first
failing stage, or else the entrypoint, is reported. Each stage's document is found under the number of the
stage, and the workflow file and the entrypoint under their names. Only a configured name of the
entrypoint that is one of the others can cost a file: the entrypoint takes its place.
-/

namespace WorkflowOperator

open Template Text

/-! ### File names -/

lemma toList_jobFileName (index : Nat) : (jobFileName index).toList =
    ['j', 'o', 'b', '_'] ++ ((toString index).toList ++ ['.', 'y', 'a', 'm', 'l']) := by
  simp [jobFileName]

lemma jobFileName_injective : Function.Injective jobFileName := by
  intro m n h
  have htext := congrArg String.toList h
  rw [toList_jobFileName, toList_jobFileName, List.append_cancel_left_eq,
    List.append_cancel_right_eq, String.toList_inj] at htext
  exact toString_injective htext

lemma jobFileName_ne_workflowFileName (index : Nat) : jobFileName index ≠ workflowFileName := by
  intro h
  have htext := congrArg String.toList h
  rw [toList_jobFileName] at htext
  have hhead : some 'j' = workflowFileName.toList.head? := by rw [← htext]; rfl
  exact absurd hhead (by decide)

namespace Workflow

lemma nodup_fileNames (w : Workflow) : (workflowFileName :: w.jobFileNames).Nodup := by
  rw [List.nodup_cons]
  refine ⟨?_, List.nodup_range.map jobFileName_injective⟩
  rw [jobFileNames, List.mem_map]
  rintro ⟨index, -, hname⟩
  exact jobFileName_ne_workflowFileName index hname

/-! ### The documents of the stages -/

variable {c : Config} {w : Workflow} {jobs : List JobStep} {index : Nat}

def numbered (index : Nat) (assembled : List AssembledJob) : List (String × String) :=
  (assembled.zipIdx index).map fun p => (jobFileName p.2, p.1.document)

lemma keys_numbered (assembled : List AssembledJob) :
    (numbered index assembled).map Prod.fst =
      (List.range' index assembled.length).map jobFileName := by
  rw [numbered, List.map_map, ← List.zipIdx_map_snd index assembled, List.map_map]
  rfl

lemma jobFiles_eq_ok_iff {files : List (String × String)} : w.jobFiles c index jobs = .ok files ↔
    ∃ assembled, List.Forall₂ (fun j a => w.assemble c j = .ok a) jobs assembled ∧
      files = numbered index assembled := by
  induction jobs generalizing index files with
  | nil =>
    rw [jobFiles]
    simp [numbered, eq_comm]
  | cons j rest ih =>
    rw [jobFiles, bind_eq_ok_iff]
    simp only [bind_eq_ok_iff, ih, List.forall₂_cons_left_iff]
    constructor
    · rintro ⟨a, ha, _, ⟨assembled, hassembled, rfl⟩, hfiles⟩
      cases hfiles
      exact ⟨a :: assembled, ⟨a, assembled, ha, hassembled, rfl⟩, rfl⟩
    · rintro ⟨_, ⟨a, assembled, ha, hassembled, rfl⟩, rfl⟩
      exact ⟨a, ha, _, ⟨assembled, hassembled, rfl⟩, rfl⟩

lemma exists_jobFiles_iff : (∃ files, w.jobFiles c index jobs = .ok files) ↔
    ∀ j ∈ jobs, ∃ a, w.assemble c j = .ok a := by
  induction jobs generalizing index with
  | nil => simp [jobFiles]
  | cons j rest ih =>
    rw [List.forall_mem_cons, ← @ih (index + 1)]
    simp only [jobFiles, bind_eq_ok_iff]
    constructor
    · rintro ⟨_, a, ha, more, hmore, -⟩
      exact ⟨⟨a, ha⟩, more, hmore⟩
    · rintro ⟨⟨a, ha⟩, more, hmore⟩
      exact ⟨_, a, ha, more, hmore, rfl⟩

/-- The error is that of the first stage that does not assemble. -/
lemma jobFiles_eq_error_iff {fault : Fault} : w.jobFiles c index jobs = .error fault ↔
    ∃ before j after, jobs = before ++ j :: after ∧
      (∀ k ∈ before, ∃ a, w.assemble c k = .ok a) ∧ w.assemble c j = .error fault := by
  induction jobs generalizing index with
  | nil => simp [jobFiles]
  | cons first rest ih =>
    rw [jobFiles, bind_eq_error_iff]
    simp only [bind_eq_error_iff, ih]
    constructor
    · rintro (hfirst | ⟨a, ha, ⟨before, j, after, rfl, hbefore, hj⟩ | ⟨_, -, ⟨⟩⟩⟩)
      · exact ⟨[], first, rest, rfl, by simp, hfirst⟩
      · refine ⟨first :: before, j, after, rfl, ?_, hj⟩
        rw [List.forall_mem_cons]
        exact ⟨⟨a, ha⟩, hbefore⟩
    · rintro ⟨before, j, after, hsplit, hbefore, hj⟩
      cases before with
      | nil =>
        obtain ⟨rfl, -⟩ := List.cons.inj hsplit
        exact Or.inl hj
      | cons k before =>
        obtain ⟨rfl, hrest⟩ := List.cons.inj hsplit
        rw [List.forall_mem_cons] at hbefore
        obtain ⟨⟨a, ha⟩, hbefore⟩ := hbefore
        exact Or.inr ⟨a, ha, Or.inl ⟨before, j, after, hrest, hbefore, hj⟩⟩

/-! ### All files -/

def otherFiles (w : Workflow) (assembled : List AssembledJob) : List (String × String) :=
  numbered 0 assembled ++ [(workflowFileName, w.file)]

section
variable {assembled : List AssembledJob}
  (h : List.Forall₂ (fun j a => w.assemble c j = .ok a) w.spec.jobs assembled)
include h

lemma keys_otherFiles :
    (w.otherFiles assembled).map Prod.fst = w.jobFileNames ++ [workflowFileName] := by
  rw [otherFiles, List.map_append, keys_numbered, ← h.length_eq, ← List.range_eq_range']
  rfl

lemma nodup_otherFiles : ((w.otherFiles assembled).map Prod.fst).Nodup := by
  rw [keys_otherFiles h, List.nodup_append_comm]
  exact w.nodup_fileNames

lemma exists_mem_otherFiles {j : JobStep} (hj : w.spec.jobs[index]? = some j) :
    ∃ a, w.assemble c j = .ok a ∧ (jobFileName index, a.document) ∈ w.otherFiles assembled := by
  obtain ⟨hlength, hget⟩ := List.forall₂_iff_get.mp h
  obtain ⟨hindex, rfl⟩ := List.getElem?_eq_some_iff.mp hj
  have hindex' : index < assembled.length := hlength ▸ hindex
  have hplace : (assembled[index], index) ∈ assembled.zipIdx :=
    List.mk_mem_zipIdx_iff_getElem?.mpr (List.getElem?_eq_getElem hindex')
  exact ⟨assembled[index], hget index hindex hindex',
    List.mem_append_left _ (List.mem_map.mpr ⟨_, hplace, rfl⟩)⟩

end

lemma managerFiles_eq_ok_iff {files : TextMap String} : w.managerFiles c = .ok files ↔
    ∃ assembled text, List.Forall₂ (fun j a => w.assemble c j = .ok a) w.spec.jobs assembled ∧
      w.entrypoint c.manager = .ok text ∧
        files = (SortedMap.ofList (w.otherFiles assembled)).insert c.manager.entrypoint text := by
  have hconcat : ∀ (assembled : List AssembledJob) (text : String),
      SortedMap.ofList (numbered 0 assembled ++
          [(workflowFileName, w.file), (c.manager.entrypoint, text)]) =
        (SortedMap.ofList (w.otherFiles assembled)).insert c.manager.entrypoint text := by
    intro assembled text
    rw [← SortedMap.ofList_concat _ (c.manager.entrypoint, text), otherFiles, List.append_assoc]
    rfl
  simp only [managerFiles, bind_eq_ok_iff, jobFiles_eq_ok_iff]
  constructor
  · rintro ⟨_, ⟨assembled, hassembled, rfl⟩, text, htext, hfiles⟩
    rw [hconcat] at hfiles
    cases hfiles
    exact ⟨assembled, text, hassembled, htext, rfl⟩
  · rintro ⟨assembled, text, hassembled, htext, rfl⟩
    refine ⟨_, ⟨assembled, hassembled, rfl⟩, text, htext, ?_⟩
    rw [hconcat]
    rfl

lemma exists_managerFiles (hvalues : w.HasEntrypointValues c.manager)
    (hjobs : ∀ j ∈ w.spec.jobs, ∃ a, w.assemble c j = .ok a) :
    ∃ files, w.managerFiles c = .ok files := by
  obtain ⟨_, hfiles⟩ := (@exists_jobFiles_iff c w _ 0).mpr hjobs
  obtain ⟨assembled, hassembled, -⟩ := jobFiles_eq_ok_iff.mp hfiles
  exact ⟨_, managerFiles_eq_ok_iff.mpr
    ⟨assembled, _, hassembled, entrypoint_eq_ok_iff.mpr ⟨hvalues, rfl⟩, rfl⟩⟩

/-- The manager has all of its files: the entrypoint, the workflow file and the document of each stage
under its number, the latter two as far as the entrypoint has not their name, and no others. -/
structure HasFiles (c : Config) (w : Workflow) (files : TextMap String) : Prop where
  entrypoint : ∃ text, w.entrypoint c.manager = .ok text ∧
    files.get? c.manager.entrypoint = some text
  workflowFile : c.manager.entrypoint ≠ workflowFileName →
    files.get? workflowFileName = some w.file
  document : ∀ index j, w.spec.jobs[index]? = some j → c.manager.entrypoint ≠ jobFileName index →
    ∃ a, w.assemble c j = .ok a ∧ files.get? (jobFileName index) = some a.document
  names : ∀ name, name ∈ files.keys ↔
    name ∈ c.manager.entrypoint :: workflowFileName :: w.jobFileNames
  size : files.size = w.spec.jobs.length +
    if c.manager.entrypoint ∈ workflowFileName :: w.jobFileNames then 1 else 2

lemma hasFiles_of_managerFiles {files : TextMap String} (h : w.managerFiles c = .ok files) :
    w.HasFiles c files := by
  obtain ⟨assembled, text, hassembled, htext, rfl⟩ := managerFiles_eq_ok_iff.mp h
  have hother : ∀ {name value : String}, c.manager.entrypoint ≠ name →
      (name, value) ∈ w.otherFiles assembled →
        ((SortedMap.ofList (w.otherFiles assembled)).insert c.manager.entrypoint text).get? name =
          some value := by
    intro name value hne hmem
    rw [SortedMap.get?_insert_of_ne _ hne.symm]
    exact (SortedMap.get?_ofList (nodup_otherFiles hassembled)).mpr hmem
  have hnames : ∀ name,
      name ∈ ((SortedMap.ofList (w.otherFiles assembled)).insert c.manager.entrypoint text).keys ↔
        name ∈ c.manager.entrypoint :: workflowFileName :: w.jobFileNames := by
    intro name
    rw [SortedMap.mem_keys_iff, ← SortedMap.contains_eq_true_iff, SortedMap.contains_insert,
      SortedMap.contains_eq_true_iff, ← SortedMap.mem_keys_iff, SortedMap.mem_keys_ofList,
      keys_otherFiles hassembled]
    simp [or_comm]
  have hlength : w.jobFileNames.length = w.spec.jobs.length := by
    rw [jobFileNames, List.length_map, List.length_range]
  refine ⟨⟨text, htext, SortedMap.get?_insert_self _ _ _⟩, ?_, ?_, hnames, ?_⟩
  · exact fun hne => hother hne (List.mem_append_right _ List.mem_cons_self)
  · intro index j hj hne
    obtain ⟨a, ha, hmem⟩ := exists_mem_otherFiles hassembled hj
    exact ⟨a, ha, hother hne hmem⟩
  · split
    next htaken =>
      have hsize := SortedMap.size_eq_length w.nodup_fileNames fun name =>
        (hnames name).trans (List.mem_cons.trans (or_iff_right_of_imp fun heq => heq ▸ htaken))
      rw [hsize, List.length_cons, hlength]
    next hfree =>
      have hsize := SortedMap.size_eq_length (List.nodup_cons.mpr ⟨hfree, w.nodup_fileNames⟩) hnames
      rw [hsize, List.length_cons, List.length_cons, hlength]

/-- The manager gets all of its files or none. There are files if every stage assembles and the
entrypoint is made; otherwise the first stage that does not assemble is reported, and the entrypoint if
all of them do. -/
theorem managerFiles_all_or_none (c : Config) (w : Workflow) :
    ((∃ files, w.managerFiles c = .ok files) ↔
      (∀ j ∈ w.spec.jobs, ∃ a, w.assemble c j = .ok a) ∧ ∃ text, w.entrypoint c.manager = .ok text) ∧
    (∀ fault, w.managerFiles c = .error fault ↔
      (∃ before j after, w.spec.jobs = before ++ j :: after ∧
        (∀ k ∈ before, ∃ a, w.assemble c k = .ok a) ∧ w.assemble c j = .error fault) ∨
      (∀ j ∈ w.spec.jobs, ∃ a, w.assemble c j = .ok a) ∧ w.entrypoint c.manager = .error fault) ∧
    ∀ files, w.managerFiles c = .ok files → w.HasFiles c files := by
  refine ⟨?_, fun fault => ?_, fun files => hasFiles_of_managerFiles⟩
  · rw [← @exists_jobFiles_iff c w _ 0]
    simp only [managerFiles, bind_eq_ok_iff]
    constructor
    · rintro ⟨_, documents, hdocuments, text, htext, -⟩
      exact ⟨⟨documents, hdocuments⟩, text, htext⟩
    · rintro ⟨⟨documents, hdocuments⟩, text, htext⟩
      exact ⟨_, documents, hdocuments, text, htext, rfl⟩
  · rw [← @exists_jobFiles_iff c w _ 0, ← @jobFiles_eq_error_iff c w _ 0]
    simp only [managerFiles, bind_eq_error_iff]
    constructor
    · rintro (hjob | ⟨documents, hdocuments, hentrypoint | ⟨_, -, ⟨⟩⟩⟩)
      · exact Or.inl hjob
      · exact Or.inr ⟨⟨documents, hdocuments⟩, hentrypoint⟩
    · rintro (hjob | ⟨⟨documents, hdocuments⟩, hentrypoint⟩)
      · exact Or.inl hjob
      · exact Or.inr ⟨documents, hdocuments, Or.inl hentrypoint⟩

end Workflow

/-! ### A workflow that can be set up -/

lemma validate_lab : (Workflow.stageless "training" "lab" "1f0a").validate .standard =
    .ok ((Workflow.stageless "training" "lab" "1f0a").withDefaults .standard) :=
  Workflow.validate_of_violation?_eq_none (by decide +kernel)

lemma files_lab : ∃ files, ((Workflow.stageless "training" "lab" "1f0a").withDefaults
    .standard).managerFiles .standard = .ok files :=
  Workflow.exists_managerFiles (Workflow.hasEntrypointValues_standard validate_lab)
    fun _ hj => absurd hj List.not_mem_nil

namespace Workflow

lemma entrypoint_renamed (layout : ManagerLayout) (name : String) (w : Workflow) :
    w.entrypoint { layout with entrypoint := name } = w.entrypoint layout := rfl

/-- A configuration that gives the entrypoint the name of the workflow file. -/
def misnamed : Config :=
  { Config.standard with manager := { ManagerLayout.standard with entrypoint := workflowFileName } }

/-- The workflow file is lost if the entrypoint has its name. -/
theorem misnamed_entrypoint_costs_a_file :
    (stageless "training" "lab" "1f0a").validate misnamed =
      .ok ((stageless "training" "lab" "1f0a").withDefaults misnamed) ∧
    ∃ files, ((stageless "training" "lab" "1f0a").withDefaults misnamed).managerFiles misnamed =
      .ok files ∧ files.size = (stageless "training" "lab" "1f0a").spec.jobs.length + 1 := by
  obtain ⟨_, hstandard⟩ := files_lab
  obtain ⟨-, text, -, htext, -⟩ := managerFiles_eq_ok_iff.mp hstandard
  have hmisnamed : ∃ files, ((stageless "training" "lab" "1f0a").withDefaults misnamed).managerFiles
      misnamed = .ok files :=
    ⟨_, managerFiles_eq_ok_iff.mpr
      ⟨[], text, .nil, (entrypoint_renamed _ workflowFileName _).trans htext, rfl⟩⟩
  exact ⟨validate_lab, hmisnamed.imp fun _ hfiles => ⟨hfiles, (hasFiles_of_managerFiles hfiles).size⟩⟩

end Workflow

end WorkflowOperator
