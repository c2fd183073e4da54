import Mathlib.Data.List.Basic
import WorkflowOperator.Config.Reading
import WorkflowOperator.Proofs.Text.Count

/-!
# Layers of the configuration

A setting has the value of the first of three layers that gives it one: its environment variable, the
configuration file, and what is built in. Which other settings the layers give does not matter, although
the file is read section by section.
-/

namespace WorkflowOperator

/-- A value gives another under a name: a table in its first entry of that name, an array in the place
that the name has among the given ones. -/
inductive Toml.Value.Gives (names : List String) (name : String) : Toml.Value → Toml.Value → Prop
  | entry {before after : List (String × Toml.Value)} {v : Toml.Value}
    (h : name ∉ before.map Prod.fst) : Gives names name (.table (before ++ (name, v) :: after)) v
  | place {items : List Toml.Value} {i : Nat} {v : Toml.Value} (hname : names[i]? = some name)
    (hitem : items[i]? = some v) : Gives names name (.array items) v

/-- A value can be a section: a table, the items of one in their order, or a date, which is a section
without settings. -/
inductive Toml.Value.IsSection : Toml.Value → Prop
  | table (entries : List (String × Toml.Value)) : IsSection (.table entries)
  | array (items : List Toml.Value) : IsSection (.array items)
  | datetime : IsSection .datetime

namespace Config

/-- What the value of a setting is. -/
inductive SettingKind
  | text
  | count

def SettingKind.Carrier : SettingKind → Type
  | .text => String
  | .count => UInt32

/-- A text from the environment is a value in words. -/
def SettingKind.IsSpelledBy : (k : SettingKind) → String → k.Carrier → Prop
  | .text, s, t => t = s
  | .count, s, n => Text.SpellsCount s n

/-- A value in the file is a value of a setting. -/
def SettingKind.Is : (k : SettingKind) → Toml.Value → k.Carrier → Prop
  | .text, v, t => v = .text t
  | .count, v, n => v = .integer n.toNat

/-- The settings of a configuration. -/
inductive Setting
  | managerImage
  | registryImage
  | nodes
  | coresPerTask
  | arch
  | workdir
  | gpuLabel
  | pullPolicy
  | toolVersion
  | toolBaseUrl
  | mountPath
  | managerCommand
  | entrypoint

inductive FileSection
  | images
  | jobs
  | tools
  | manager

namespace Setting

def kind : Setting → SettingKind
  | nodes | coresPerTask => .count
  | _ => .text

def valueIn (c : Config) : (s : Setting) → s.kind.Carrier
  | managerImage => c.images.manager
  | registryImage => c.images.registry
  | nodes => c.jobs.nodes
  | coresPerTask => c.jobs.coresPerTask
  | arch => c.jobs.arch
  | workdir => c.jobs.workdir
  | gpuLabel => c.jobs.gpuLabel
  | pullPolicy => c.jobs.pullPolicy
  | toolVersion => c.tools.version
  | toolBaseUrl => c.tools.baseUrl
  | mountPath => c.manager.mountPath
  | managerCommand => c.manager.command
  | entrypoint => c.manager.entrypoint

/-- The environment variable of a setting. -/
def environmentName? : Setting → Option String
  | managerImage => some "STAGEWRIGHT_MANAGER_IMAGE"
  | registryImage => some "STAGEWRIGHT_REGISTRY_IMAGE"
  | coresPerTask => some "STAGEWRIGHT_CORES_PER_TASK"
  | workdir => some "STAGEWRIGHT_WORKDIR"
  | toolVersion => some "STAGEWRIGHT_ORAS_VERSION"
  | _ => none

def home : Setting → FileSection
  | managerImage | registryImage => .images
  | nodes | coresPerTask | arch | workdir | gpuLabel | pullPolicy => .jobs
  | toolVersion | toolBaseUrl => .tools
  | mountPath | managerCommand | entrypoint => .manager

def name : Setting → String
  | managerImage => "manager"
  | registryImage => "registry"
  | nodes => "nodes"
  | coresPerTask => "cores_per_task"
  | arch => "arch"
  | workdir => "workdir"
  | gpuLabel => "gpu_label"
  | pullPolicy => "pull_policy"
  | toolVersion => "version"
  | toolBaseUrl => "base_url"
  | mountPath => "mount_path"
  | managerCommand => "command"
  | entrypoint => "entrypoint"

end Setting

namespace FileSection

def name : FileSection → String
  | images => "images"
  | jobs => "jobs"
  | tools => "tools"
  | manager => "manager"

def all : List FileSection := [images, jobs, tools, manager]

def settings : FileSection → List Setting
  | images => [.managerImage, .registryImage]
  | jobs => [.nodes, .coresPerTask, .arch, .workdir, .gpuLabel, .pullPolicy]
  | tools => [.toolVersion, .toolBaseUrl]
  | manager => [.mountPath, .managerCommand, .entrypoint]

def settingNames (sec : FileSection) : List String := sec.settings.map Setting.name

end FileSection

/-- A file gives a section. -/
def GivesSection (file : Toml.Value) (sec : FileSection) (v : Toml.Value) : Prop :=
  file.Gives (FileSection.all.map FileSection.name) sec.name v

/-- A file gives a value for a setting, of whatever type. -/
def GivesSetting (file : Toml.Value) (s : Setting) (v : Toml.Value) : Prop :=
  ∃ sec, GivesSection file s.home sec ∧ sec.Gives s.home.settingNames s.name v

/-- A file can be read as a configuration: the sections that it gives are such, and the settings that it
gives are of their types. -/
structure IsConfiguration (file : Toml.Value) : Prop where
  sections : ∀ sec v, GivesSection file sec v → v.IsSection
  settings : ∀ s v, GivesSetting file s v → ∃ x, s.kind.Is v x

/-- The text of a file is there and can be read as a configuration. -/
def IsDecodable (text : Except FileFault String) : Prop :=
  ∃ content file, text = .ok content ∧ Toml.ofText? content = some file ∧ IsConfiguration file

/-- A file gives a setting a value. -/
def Setting.InFile (s : Setting) (text : Except FileFault String) (x : s.kind.Carrier) : Prop :=
  ∃ content file v, text = .ok content ∧ Toml.ofText? content = some file ∧
    GivesSetting file s v ∧ s.kind.Is v x

/-- The environment gives a setting a value. -/
def Setting.InEnvironment (s : Setting) (env : Environment) (x : s.kind.Carrier) : Prop :=
  ∃ name text, s.environmentName? = some name ∧ env name = some text ∧ s.kind.IsSpelledBy text x

/-- The value of a setting comes from the first of these that gives it one: the environment, a file, and
what is built in. -/
def Setting.IsLayered (s : Setting) (env : Environment) (inFile : s.kind.Carrier → Prop)
    (x : s.kind.Carrier) : Prop :=
  s.InEnvironment env x ∨
    (¬ ∃ y, s.InEnvironment env y) ∧
      (inFile x ∨ (¬ ∃ y, inFile y) ∧ x = s.valueIn .standard)

/-! ### Values of settings -/

/-- The value in words, if a text from the environment is one. -/
def SettingKind.ofWords? : (k : SettingKind) → String → Option k.Carrier
  | .text => some
  | .count => Text.readCount?

lemma SettingKind.ofWords?_eq_some_iff (k : SettingKind) {s : String} {x : k.Carrier} :
    k.ofWords? s = some x ↔ k.IsSpelledBy s x := by
  cases k with
  | text => exact ⟨fun h => (Option.some.inj h).symm, fun h => congrArg some h.symm⟩
  | count => exact Text.readCount_eq_some_iff

lemma valueIn_withEnvironment (env : Environment) (c : Config) (s : Setting) :
    s.valueIn (c.withEnvironment env) =
      ((s.environmentName?.bind env).bind s.kind.ofWords?).getD (s.valueIn c) := by
  cases s with
  | coresPerTask | nodes | arch | gpuLabel | pullPolicy | toolBaseUrl | mountPath | managerCommand
  | entrypoint => rfl
  | managerImage | registryImage | workdir | toolVersion =>
    exact congrArg (Option.getD · _) (Option.bind_fun_some _).symm

lemma inEnvironment_iff (env : Environment) (s : Setting) (x : s.kind.Carrier) :
    s.InEnvironment env x ↔ (s.environmentName?.bind env).bind s.kind.ofWords? = some x := by
  simp only [Setting.InEnvironment, Option.bind_eq_some_iff, SettingKind.ofWords?_eq_some_iff]
  constructor
  · rintro ⟨name, text, hname, htext, hx⟩
    exact ⟨text, ⟨name, hname, htext⟩, hx⟩
  · rintro ⟨text, ⟨name, hname, htext⟩, hx⟩
    exact ⟨name, text, hname, htext, hx⟩

/-- The environment is the first layer, whatever the others give. -/
lemma isLayered_withEnvironment {env : Environment} {c : Config} {s : Setting}
    {inFile : s.kind.Carrier → Prop}
    (h : inFile (s.valueIn c) ∨ (¬ ∃ y, inFile y) ∧ s.valueIn c = s.valueIn .standard) :
    s.IsLayered env inFile (s.valueIn (c.withEnvironment env)) := by
  simp only [Setting.IsLayered, inEnvironment_iff, valueIn_withEnvironment]
  cases (s.environmentName?.bind env).bind s.kind.ofWords? with
  | some x => exact Or.inl rfl
  | none => exact Or.inr ⟨by simp, h⟩

/-! ### Sections -/

lemma exists_ofValue?_iff (names : List String) (v : Toml.Value) :
    (∃ st, Settings.ofValue? names v = some st) ↔ v.IsSection := by
  constructor
  · rintro ⟨st, hst⟩
    cases v with
    | table entries => exact .table entries
    | array items => exact .array items
    | datetime => exact .datetime
    | text | integer | float | boolean => cases hst
  · rintro (entries | items | -)
    all_goals exact ⟨_, rfl⟩

lemma settings_eq_some_iff {names : List String} {v u : Toml.Value} {st : Settings}
    (h : Settings.ofValue? names v = some st) (hnames : names.Nodup) {name : String}
    (hname : name ∈ names) : st name = some u ↔ v.Gives names name u := by
  cases v with
  | table entries =>
    cases h
    simp only [Option.map_eq_some_iff, List.find?_eq_some_iff_append, beq_iff_eq,
      Bool.not_eq_true', beq_eq_false_iff_ne]
    constructor
    · rintro ⟨⟨name', u'⟩, ⟨rfl, before, after, rfl, hbefore⟩, rfl⟩
      refine .entry fun hmem => ?_
      obtain ⟨e, he, heq⟩ := List.mem_map.mp hmem
      exact hbefore e he heq
    · intro hgives
      cases hgives with
      | entry hbefore =>
        exact ⟨_, ⟨rfl, _, _, rfl, fun e he heq => hbefore (List.mem_map.mpr ⟨e, he, heq⟩)⟩, rfl⟩
  | array items =>
    cases h
    have hplace : names[names.idxOf name]? = some name := List.getElem?_idxOf hname
    constructor
    · exact fun hitem => .place hplace hitem
    · intro hgives
      cases hgives with
      | @place _ i _ hi hitem =>
        have hidx : names.idxOf name = i :=
          (List.getElem?_inj (List.idxOf_lt_length_iff.mpr hname) hnames).mp (hplace.trans hi.symm)
        dsimp only
        rw [hidx, hitem]
  | datetime =>
    cases h
    exact ⟨nofun, nofun⟩
  | text | integer | float | boolean => cases h

def SettingKind.read? : (k : SettingKind) → Settings → String → k.Carrier → Option k.Carrier
  | .text => Settings.text
  | .count => Settings.count

lemma text_eq_some_iff {st : Settings} {name default t : String} :
    st.text name default = some t ↔
      (∃ v, st name = some v ∧ v = .text t) ∨ st name = none ∧ t = default := by
  unfold Settings.text
  cases st name with
  | none => simp [eq_comm]
  | some v => cases v <;> simp

lemma count_eq_some_iff {st : Settings} {name : String} {default n : UInt32} :
    st.count name default = some n ↔
      (∃ v, st name = some v ∧ v = .integer n.toNat) ∨ st name = none ∧ n = default := by
  unfold Settings.count
  cases st name with
  | none => simp [eq_comm]
  | some v =>
    cases v with
    | integer m =>
      have hn := n.toNat_lt
      simp only [Option.ite_none_right_eq_some, Option.some.injEq, exists_eq_left',
        Toml.Value.integer.injEq, reduceCtorEq, false_and, or_false]
      constructor
      · rintro ⟨⟨hlow, hhigh⟩, rfl⟩
        have hsize : UInt32.size = 0x100000000 := rfl
        rw [UInt32.toNat_ofNat_of_lt' (by omega)]
        omega
      · rintro rfl
        refine ⟨by omega, ?_⟩
        rw [Int.toNat_natCast, UInt32.ofNat_toNat]
    | text | float | boolean | datetime | array | table => simp

lemma SettingKind.read?_eq_some_iff (k : SettingKind) {st : Settings} {name : String}
    {default x : k.Carrier} : k.read? st name default = some x ↔
      (∃ v, st name = some v ∧ k.Is v x) ∨ st name = none ∧ x = default := by
  cases k with
  | text => exact text_eq_some_iff
  | count => exact count_eq_some_iff

def Setting.IsRead (s : Setting) (sections : Settings) (x : s.kind.Carrier) : Prop :=
  match sections s.home.name with
  | none => x = s.valueIn .standard
  | some v => ∃ inner, Settings.ofValue? s.home.settingNames v = some inner ∧
      s.kind.read? inner s.name (s.valueIn .standard) = some x

lemma home_of_mem_settings {sec : FileSection} {s : Setting} (h : s ∈ sec.settings) :
    s.home = sec := by
  cases sec <;> simp only [FileSection.settings, List.mem_cons, List.not_mem_nil, or_false] at h
  case images => rcases h with rfl | rfl <;> rfl
  case jobs => rcases h with rfl | rfl | rfl | rfl | rfl | rfl <;> rfl
  case tools => rcases h with rfl | rfl <;> rfl
  case manager => rcases h with rfl | rfl | rfl <;> rfl

lemma mem_settings_home (s : Setting) : s ∈ s.home.settings := by
  cases s <;> simp [Setting.home, FileSection.settings]

/-- A section is read if each of its settings is. -/
lemma sectionOr_eq_some_iff {α : Type} (sec : FileSection) {read : Toml.Value → Option α}
    {standard r : α} {c : Config}
    (hstandard : r = standard ↔ ∀ s ∈ sec.settings, s.valueIn c = s.valueIn .standard)
    (hread : ∀ v, read v = some r ↔ ∃ inner, Settings.ofValue? sec.settingNames v = some inner ∧
      ∀ s ∈ sec.settings, s.kind.read? inner s.name (s.valueIn .standard) = some (s.valueIn c))
    (sections : Settings) : sectionOr sections sec.name read standard = some r ↔
      ∀ s ∈ sec.settings, s.IsRead sections (s.valueIn c) := by
  have hsome : ∃ s, s ∈ sec.settings := by
    cases sec <;> exact ⟨_, List.mem_cons_self⟩
  unfold sectionOr Setting.IsRead
  constructor
  · intro h s hs
    rw [home_of_mem_settings hs]
    cases hsec : sections sec.name with
    | none =>
      rw [hsec, Option.some.injEq] at h
      exact hstandard.mp h.symm s hs
    | some v =>
      rw [hsec] at h
      obtain ⟨inner, hinner, hsettings⟩ := (hread v).mp h
      exact ⟨inner, hinner, hsettings s hs⟩
  · intro h
    cases hsec : sections sec.name with
    | none =>
      refine congrArg some (hstandard.mpr fun s hs => ?_).symm
      have hs' := h s hs
      rwa [home_of_mem_settings hs, hsec] at hs'
    | some v =>
      have hinner : ∀ s ∈ sec.settings, ∃ inner, Settings.ofValue? sec.settingNames v = some inner ∧
          s.kind.read? inner s.name (s.valueIn .standard) = some (s.valueIn c) := by
        intro s hs
        have hs' := h s hs
        rwa [home_of_mem_settings hs, hsec] at hs'
      obtain ⟨s, hs⟩ := hsome
      obtain ⟨inner, heq, -⟩ := hinner s hs
      refine (hread v).mpr ⟨inner, heq, fun s hs => ?_⟩
      obtain ⟨inner', heq', hs'⟩ := hinner s hs
      rw [heq, Option.some.injEq] at heq'
      rwa [heq']

lemma images_ofValue?_eq_some_iff {v : Toml.Value} {r : ImageDefaults} :
    ImageDefaults.ofValue? v = some r ↔
      ∃ inner, Settings.ofValue? ["manager", "registry"] v = some inner ∧
        inner.text "manager" ImageDefaults.standard.manager = some r.manager ∧
        inner.text "registry" ImageDefaults.standard.registry = some r.registry := by
  cases r
  simp [ImageDefaults.ofValue?, Option.bind_eq_some_iff]

lemma jobs_ofValue?_eq_some_iff {v : Toml.Value} {r : JobDefaults} :
    JobDefaults.ofValue? v = some r ↔
      ∃ inner, Settings.ofValue?
          ["nodes", "cores_per_task", "arch", "workdir", "gpu_label", "pull_policy"] v = some inner ∧
        inner.count "nodes" JobDefaults.standard.nodes = some r.nodes ∧
        inner.count "cores_per_task" JobDefaults.standard.coresPerTask = some r.coresPerTask ∧
        inner.text "arch" JobDefaults.standard.arch = some r.arch ∧
        inner.text "workdir" JobDefaults.standard.workdir = some r.workdir ∧
        inner.text "gpu_label" JobDefaults.standard.gpuLabel = some r.gpuLabel ∧
        inner.text "pull_policy" JobDefaults.standard.pullPolicy = some r.pullPolicy := by
  cases r
  simp [JobDefaults.ofValue?, Option.bind_eq_some_iff]

lemma tools_ofValue?_eq_some_iff {v : Toml.Value} {r : ToolSource} :
    ToolSource.ofValue? v = some r ↔
      ∃ inner, Settings.ofValue? ["version", "base_url"] v = some inner ∧
        inner.text "version" ToolSource.standard.version = some r.version ∧
        inner.text "base_url" ToolSource.standard.baseUrl = some r.baseUrl := by
  cases r
  simp [ToolSource.ofValue?, Option.bind_eq_some_iff]

lemma manager_ofValue?_eq_some_iff {v : Toml.Value} {r : ManagerLayout} :
    ManagerLayout.ofValue? v = some r ↔
      ∃ inner, Settings.ofValue? ["mount_path", "command", "entrypoint"] v = some inner ∧
        inner.text "mount_path" ManagerLayout.standard.mountPath = some r.mountPath ∧
        inner.text "command" ManagerLayout.standard.command = some r.command ∧
        inner.text "entrypoint" ManagerLayout.standard.entrypoint = some r.entrypoint := by
  cases r
  simp [ManagerLayout.ofValue?, Option.bind_eq_some_iff]

section Sections

variable (sections : Settings) (c : Config)

lemma images_eq_some_iff :
    sectionOr sections "images" ImageDefaults.ofValue? .standard = some c.images ↔
      ∀ s ∈ FileSection.images.settings, s.IsRead sections (s.valueIn c) := by
  refine sectionOr_eq_some_iff .images ?_ (fun v => ?_) sections
  · obtain ⟨⟨_, _⟩, -⟩ := c
    simp only [FileSection.settings, List.forall_mem_cons, List.not_mem_nil, false_imp_iff,
      implies_true, and_true, ImageDefaults.standard, ImageDefaults.mk.injEq]
    exact Iff.rfl
  · simp only [FileSection.settings, List.forall_mem_cons, List.not_mem_nil, false_imp_iff,
      implies_true, and_true]
    exact images_ofValue?_eq_some_iff

lemma jobs_eq_some_iff :
    sectionOr sections "jobs" JobDefaults.ofValue? .standard = some c.jobs ↔
      ∀ s ∈ FileSection.jobs.settings, s.IsRead sections (s.valueIn c) := by
  refine sectionOr_eq_some_iff .jobs ?_ (fun v => ?_) sections
  · obtain ⟨-, ⟨_, _, _, _, _, _⟩, -⟩ := c
    simp only [FileSection.settings, List.forall_mem_cons, List.not_mem_nil, false_imp_iff,
      implies_true, and_true, JobDefaults.standard, JobDefaults.mk.injEq]
    exact Iff.rfl
  · simp only [FileSection.settings, List.forall_mem_cons, List.not_mem_nil, false_imp_iff,
      implies_true, and_true]
    exact jobs_ofValue?_eq_some_iff

lemma tools_eq_some_iff :
    sectionOr sections "tools" ToolSource.ofValue? .standard = some c.tools ↔
      ∀ s ∈ FileSection.tools.settings, s.IsRead sections (s.valueIn c) := by
  refine sectionOr_eq_some_iff .tools ?_ (fun v => ?_) sections
  · obtain ⟨-, -, ⟨_, _⟩, -⟩ := c
    simp only [FileSection.settings, List.forall_mem_cons, List.not_mem_nil, false_imp_iff,
      implies_true, and_true, ToolSource.standard, ToolSource.mk.injEq]
    exact Iff.rfl
  · simp only [FileSection.settings, List.forall_mem_cons, List.not_mem_nil, false_imp_iff,
      implies_true, and_true]
    exact tools_ofValue?_eq_some_iff

lemma manager_eq_some_iff :
    sectionOr sections "manager" ManagerLayout.ofValue? .standard = some c.manager ↔
      ∀ s ∈ FileSection.manager.settings, s.IsRead sections (s.valueIn c) := by
  refine sectionOr_eq_some_iff .manager ?_ (fun v => ?_) sections
  · obtain ⟨-, -, -, ⟨_, _, _⟩⟩ := c
    simp only [FileSection.settings, List.forall_mem_cons, List.not_mem_nil, false_imp_iff,
      implies_true, and_true, ManagerLayout.standard, ManagerLayout.mk.injEq]
    exact Iff.rfl
  · simp only [FileSection.settings, List.forall_mem_cons, List.not_mem_nil, false_imp_iff,
      implies_true, and_true]
    exact manager_ofValue?_eq_some_iff

end Sections

/-! ### Whole files -/

lemma ofValue?_eq_some_iff {file : Toml.Value} {c : Config} :
    ofValue? file = some c ↔
      ∃ sections, Settings.ofValue? (FileSection.all.map FileSection.name) file = some sections ∧
        ∀ s : Setting, s.IsRead sections (s.valueIn c) := by
  have hparts : ∀ sections : Settings, (∀ s : Setting, s.IsRead sections (s.valueIn c)) ↔
      ∀ sec : FileSection, ∀ s ∈ sec.settings, s.IsRead sections (s.valueIn c) :=
    fun sections => ⟨fun h _ s _ => h s, fun h s => h s.home s (mem_settings_home s)⟩
  have hsections : ∀ sections : Settings, (∀ s : Setting, s.IsRead sections (s.valueIn c)) ↔
      sectionOr sections "images" ImageDefaults.ofValue? .standard = some c.images ∧
        sectionOr sections "jobs" JobDefaults.ofValue? .standard = some c.jobs ∧
        sectionOr sections "tools" ToolSource.ofValue? .standard = some c.tools ∧
        sectionOr sections "manager" ManagerLayout.ofValue? .standard = some c.manager := by
    intro sections
    rw [hparts, images_eq_some_iff, jobs_eq_some_iff, tools_eq_some_iff, manager_eq_some_iff]
    constructor
    · exact fun h => ⟨h .images, h .jobs, h .tools, h .manager⟩
    · rintro ⟨himages, hjobs, htools, hmanager⟩ (_ | _ | _ | _)
      exacts [himages, hjobs, htools, hmanager]
  simp only [hsections, ofValue?]
  obtain ⟨images, jobs, tools, manager⟩ := c
  simp [Option.bind_eq_some_iff, FileSection.all, FileSection.name]

def ofSettings (x : (s : Setting) → s.kind.Carrier) : Config where
  images := { manager := x .managerImage, registry := x .registryImage }
  jobs := {
    nodes := x .nodes
    coresPerTask := x .coresPerTask
    arch := x .arch
    workdir := x .workdir
    gpuLabel := x .gpuLabel
    pullPolicy := x .pullPolicy }
  tools := { version := x .toolVersion, baseUrl := x .toolBaseUrl }
  manager := { mountPath := x .mountPath, command := x .managerCommand, entrypoint := x .entrypoint }

lemma valueIn_ofSettings (x : (s : Setting) → s.kind.Carrier) (s : Setting) :
    s.valueIn (ofSettings x) = x s := by
  cases s <;> rfl

lemma settingNames_nodup (sec : FileSection) : sec.settingNames.Nodup := by
  cases sec <;> decide

lemma name_mem_settingNames (s : Setting) : s.name ∈ s.home.settingNames :=
  List.mem_map_of_mem (mem_settings_home s)

lemma sectionNames_nodup : (FileSection.all.map FileSection.name).Nodup := by
  decide

lemma name_mem_sectionNames (sec : FileSection) : sec.name ∈ FileSection.all.map FileSection.name := by
  cases sec <;> decide

section File

variable {file : Toml.Value} {sections : Settings}

lemma givesSection_iff (h : Settings.ofValue? (FileSection.all.map FileSection.name) file = some sections)
    {sec : FileSection} {v : Toml.Value} : GivesSection file sec v ↔ sections sec.name = some v :=
  (settings_eq_some_iff h sectionNames_nodup (name_mem_sectionNames sec)).symm

/-- A setting is read if its section, where the file gives it, is such, and it has the value that the
section gives it, or the built-in one. -/
lemma isRead_iff (h : Settings.ofValue? (FileSection.all.map FileSection.name) file = some sections)
    {s : Setting} {x : s.kind.Carrier} :
    s.IsRead sections x ↔ (∀ v, GivesSection file s.home v → v.IsSection) ∧
      ((∃ v, GivesSetting file s v ∧ s.kind.Is v x) ∨
        (¬ ∃ v, GivesSetting file s v) ∧ x = s.valueIn .standard) := by
  simp only [GivesSetting, givesSection_iff h, Setting.IsRead]
  cases hsec : sections s.home.name with
  | none => simp
  | some v =>
    simp only [Option.some.injEq, exists_eq_left', forall_eq', ← exists_ofValue?_iff s.home.settingNames]
    cases hinner : Settings.ofValue? s.home.settingNames v with
    | none => simp
    | some inner =>
      have hgives : ∀ u, v.Gives s.home.settingNames s.name u ↔ inner s.name = some u := fun _ =>
        (settings_eq_some_iff hinner (settingNames_nodup s.home) (name_mem_settingNames s)).symm
      simp only [hgives, Option.some.injEq, exists_eq_left', exists_eq', true_and,
        SettingKind.read?_eq_some_iff, ← Option.isSome_iff_exists, Option.not_isSome_iff_eq_none]

end File

lemma isSection_of_gives {names : List String} {name : String} {v u : Toml.Value}
    (h : v.Gives names name u) : v.IsSection := by
  cases h with
  | entry => exact .table _
  | place => exact .array _

lemma gives_unique {names : List String} (hnames : names.Nodup) {name : String} (hname : name ∈ names)
    {v u w : Toml.Value} (hu : v.Gives names name u) (hw : v.Gives names name w) : u = w := by
  obtain ⟨st, hst⟩ := (exists_ofValue?_iff names v).mpr (isSection_of_gives hu)
  rw [← settings_eq_some_iff hst hnames hname] at hu hw
  exact Option.some.inj (hu.symm.trans hw)

lemma givesSetting_unique {file v w : Toml.Value} {s : Setting} (hv : GivesSetting file s v)
    (hw : GivesSetting file s w) : v = w := by
  obtain ⟨sec, hsec, hv⟩ := hv
  obtain ⟨sec', hsec', hw⟩ := hw
  obtain rfl := gives_unique sectionNames_nodup (name_mem_sectionNames s.home) hsec hsec'
  exact gives_unique (settingNames_nodup s.home) (name_mem_settingNames s) hv hw

lemma exists_home (sec : FileSection) : ∃ s : Setting, s.home = sec := by
  cases sec
  exacts [⟨.managerImage, rfl⟩, ⟨.nodes, rfl⟩, ⟨.toolVersion, rfl⟩, ⟨.mountPath, rfl⟩]

lemma exists_configuration_iff {file : Toml.Value} (hfile : file.IsSection) :
    (∃ c, ofValue? file = some c) ↔ IsConfiguration file := by
  obtain ⟨sections, hsections⟩ :=
    (exists_ofValue?_iff (FileSection.all.map FileSection.name) file).mpr hfile
  simp only [ofValue?_eq_some_iff, hsections, Option.some.injEq, exists_eq_left', isRead_iff hsections]
  constructor
  · rintro ⟨c, hc⟩
    constructor
    · intro sec v hv
      obtain ⟨s, rfl⟩ := exists_home sec
      exact (hc s).1 v hv
    · intro s v hv
      rcases (hc s).2 with ⟨w, hw, hx⟩ | ⟨hnone, -⟩
      · rw [givesSetting_unique hv hw]
        exact ⟨_, hx⟩
      · exact absurd ⟨v, hv⟩ hnone
  · intro hfile
    have hvalue : ∀ s : Setting, ∃ x : s.kind.Carrier,
        (∃ v, GivesSetting file s v ∧ s.kind.Is v x) ∨
          (¬ ∃ v, GivesSetting file s v) ∧ x = s.valueIn .standard := by
      intro s
      by_cases hgives : ∃ v, GivesSetting file s v
      · obtain ⟨v, hv⟩ := hgives
        obtain ⟨x, hx⟩ := hfile.settings s v hv
        exact ⟨x, Or.inl ⟨v, hv, hx⟩⟩
      · exact ⟨_, Or.inr ⟨hgives, rfl⟩⟩
    choose x hx using hvalue
    refine ⟨ofSettings x, fun s => ⟨fun v => hfile.sections s.home v, ?_⟩⟩
    rw [valueIn_ofSettings]
    exact hx s

lemma valueIn_of_ofValue? {file : Toml.Value} {c : Config} (h : ofValue? file = some c) (s : Setting) :
    (∃ v, GivesSetting file s v ∧ s.kind.Is v (s.valueIn c)) ∨
      (¬ ∃ v, GivesSetting file s v) ∧ s.valueIn c = s.valueIn .standard := by
  obtain ⟨sections, hsections, hread⟩ := ofValue?_eq_some_iff.mp h
  exact ((isRead_iff hsections).mp (hread s)).2

lemma isSection_of_ofText? {content : String} {file : Toml.Value}
    (h : Toml.ofText? content = some file) : file.IsSection := by
  simp only [Toml.ofText?, Option.bind_eq_bind, Option.bind_eq_some_iff, Option.pure_def,
    Option.some.injEq] at h
  obtain ⟨lines, -, draft, -, rfl⟩ := h
  exact .table _

lemma ofText?_eq_some_iff {content : String} {c : Config} : ofText? content = some c ↔
    ∃ file, Toml.ofText? content = some file ∧ ofValue? file = some c :=
  Option.bind_eq_some_iff

lemma isDecodable_iff {text : Except FileFault String} :
    IsDecodable text ↔ ∃ content c, text = .ok content ∧ ofText? content = some c := by
  simp only [IsDecodable, ofText?_eq_some_iff]
  constructor
  · rintro ⟨content, file, htext, hcontent, hfile⟩
    obtain ⟨c, hc⟩ := (exists_configuration_iff (isSection_of_ofText? hcontent)).mpr hfile
    exact ⟨content, c, htext, file, hcontent, hc⟩
  · rintro ⟨content, c, htext, file, hcontent, hc⟩
    exact ⟨content, file, htext, hcontent,
      (exists_configuration_iff (isSection_of_ofText? hcontent)).mp ⟨c, hc⟩⟩

lemma ofFile_eq_ok_iff {env : Environment} {path : String} {text : Except FileFault String}
    {c : Config} : ofFile env path text = .ok c ↔
      ∃ content d, text = .ok content ∧ ofText? content = some d ∧ c = d.withEnvironment env := by
  unfold ofFile
  cases text with
  | error fault => simp
  | ok content =>
    cases h : ofText? content with
    | none => simp [h]
    | some d => simp [h, eq_comm]

lemma ofFile_eq_ok_or_config (env : Environment) (path : String) (text : Except FileFault String) :
    (∃ c, ofFile env path text = .ok c) ∨ ∃ message, ofFile env path text = .error (.config message) := by
  unfold ofFile
  cases text with
  | error fault => exact Or.inr ⟨_, rfl⟩
  | ok content =>
    dsimp only
    cases ofText? content with
    | none => exact Or.inr ⟨_, rfl⟩
    | some d => exact Or.inl ⟨_, rfl⟩

lemma exists_ofFile_eq_ok_iff (env : Environment) (path : String) (text : Except FileFault String) :
    (∃ c, ofFile env path text = .ok c) ↔ IsDecodable text := by
  simp only [isDecodable_iff, ofFile_eq_ok_iff]
  constructor
  · rintro ⟨-, content, d, htext, hd, -⟩
    exact ⟨content, d, htext, hd⟩
  · rintro ⟨content, d, htext, hd⟩
    exact ⟨_, content, d, htext, hd, rfl⟩

lemma inFile_or_of_ofText? {content : String} {c : Config} (h : ofText? content = some c)
    (s : Setting) : s.InFile (.ok content) (s.valueIn c) ∨
      (¬ ∃ y, s.InFile (.ok content) y) ∧ s.valueIn c = s.valueIn .standard := by
  obtain ⟨file, hfile, hc⟩ := ofText?_eq_some_iff.mp h
  rcases valueIn_of_ofValue? hc s with ⟨v, hv, hx⟩ | ⟨hnone, hx⟩
  · exact Or.inl ⟨content, file, v, rfl, hfile, hv, hx⟩
  · refine Or.inr ⟨?_, hx⟩
    rintro ⟨y, content', file', v, hcontent, hfile', hv, -⟩
    cases hcontent
    cases hfile.symm.trans hfile'
    exact hnone ⟨v, hv⟩

/-- A configuration is merged from its layers setting by setting.  A file that was asked for gives one
just when it can be read as a configuration, else an error of the configuration; the same file at the
usual place gives the same one, and if it cannot be read, it is as if it were not there. -/
theorem settings_are_layered (env : Environment) (path : String) (text : Except FileFault String) :
    (∀ c, ofFile env path text = .ok c →
        ∀ s : Setting, s.IsLayered env (s.InFile text) (s.valueIn c)) ∧
      ((∃ c, ofFile env path text = .ok c) ↔ IsDecodable text) ∧
      ((∃ message, ofFile env path text = .error (.config message)) ↔ ¬ IsDecodable text) ∧
      (∀ c, ofFile env path text = .ok c → ofUsualFile env text = c) ∧
      (¬ IsDecodable text → ofUsualFile env text = Config.standard.withEnvironment env ∧
        ∀ s : Setting, s.IsLayered env (fun _ => False) (s.valueIn (ofUsualFile env text))) := by
  refine ⟨?_, exists_ofFile_eq_ok_iff env path text, ?_, ?_, ?_⟩
  · intro c hc s
    obtain ⟨content, d, rfl, hd, rfl⟩ := ofFile_eq_ok_iff.mp hc
    exact isLayered_withEnvironment (inFile_or_of_ofText? hd s)
  · rw [← exists_ofFile_eq_ok_iff env path text]
    constructor
    · rintro ⟨message, herror⟩ ⟨c, hc⟩
      cases herror.symm.trans hc
    · exact (ofFile_eq_ok_or_config env path text).resolve_left
  · intro c hc
    obtain ⟨content, d, rfl, hd, rfl⟩ := ofFile_eq_ok_iff.mp hc
    simp [ofUsualFile, Except.toOption, hd]
  · intro hnone
    have hstandard : ofUsualFile env text = Config.standard.withEnvironment env := by
      have hread : text.toOption.bind ofText? = none := by
        rw [Option.eq_none_iff_forall_ne_some]
        intro c hc
        cases text with
        | error fault => cases hc
        | ok content => exact hnone (isDecodable_iff.mpr ⟨content, c, rfl, hc⟩)
      rw [ofUsualFile, hread, Option.getD_none]
    refine ⟨hstandard, fun s => ?_⟩
    rw [hstandard]
    exact isLayered_withEnvironment (Or.inr ⟨by simp, rfl⟩)

end Config

end WorkflowOperator
