import WorkflowOperator.Proofs.Converge.Desired

/-!
# The effect of one pass

What one pass of convergence does to a store in any state: nothing if the workflow is refused, and
otherwise the creation of exactly the wanted objects that the store lacks, up to the manager's files
if these are needed and cannot be made.
-/

namespace WorkflowOperator

def Workflow.blankReport (w : Workflow) : Report := ⟨w.name, w.inNamespace, [], []⟩

variable (stamps : Nat → Stamp) {c : Config} {desired w : Workflow} {uid : String}

lemma converge_of_prepare_error {e : Error} (h : desired.prepare c = .error e) (s : Store) :
    s.converge stamps c desired = ⟨.error e, [.failed desired.name none e], s⟩ := by
  simp [Store.converge, Workflow.converge, h, Pass.run]

lemma prepare_of_validate_error {e : Error} (h : desired.validate c = .error e) :
    desired.prepare c = .error e := by
  simp [Workflow.prepare, h, bind, Except.bind]

lemma prepare_of_no_uid (h : desired.validate c = .ok w) (hu : w.identity.uid = none) :
    desired.prepare c = .error (Violation.noUid w.name).toError := by
  simp [Workflow.prepare, h, Workflow.owner_of_no_uid hu, bind, Except.bind]

lemma prepare_of_uid (h : desired.validate c = .ok w) (hu : w.identity.uid = some uid) :
    desired.prepare c = .ok (w, w.ownerWith uid) := by
  simp [Workflow.prepare, h, Workflow.owner_of_uid hu, bind, Except.bind, pure, Except.pure]

lemma silent_converge (h : desired.validate c = .ok w) (hu : w.identity.uid = some uid) :
    (desired.converge c).silent =
      settle (w.ownerWith uid) (w.wanted c) w.blankReport := by
  simp only [Workflow.converge, prepare_of_uid h hu, silent_takeSteps, Workflow.allWanted_plan]
  rfl

lemma converge_eq_settle (h : desired.validate c = .ok w) (hu : w.identity.uid = some uid)
    (s : Store) {ran : Ran Store (Outcome Report)}
    (hran : (settle (w.ownerWith uid) (w.wanted c) w.blankReport).run (Store.backend stamps) s = ran) :
    (s.converge stamps c desired).result = ran.result ∧
      (s.converge stamps c desired).state = ran.state := by
  rw [← silent_converge h hu, run_silent] at hran
  subst hran
  exact ⟨rfl, rfl⟩

lemma storable_wanted (h : desired.validate c = .ok w) :
    ∀ v ∈ w.wanted c, v.key.IsStorable := by
  intro v hv
  apply Workflow.isStorable_of_mem_dependencyOrder (Workflow.name_ne_empty_of_validate h)
  rw [← Workflow.keys_wanted c w]
  exact List.mem_map_of_mem hv

lemma nodup_wanted (c : Config) (w : Workflow) : ((w.wanted c).map Wanted.key).Nodup := by
  rw [Workflow.keys_wanted]
  exact w.nodup_dependencyOrder

lemma object_wantedManagerFiles {files : TextMap String} (h : w.managerFiles c = .ok files) :
    (w.wantedManagerFiles c).object = .ok (w.object w.managerName (.configMap files)) := by
  change ((w.managerFiles c).map _).mapError _ = _
  rw [h]
  rfl

lemma object_wantedManagerFiles_error {fault : Template.Fault}
    (h : w.managerFiles c = .error fault) :
    (w.wantedManagerFiles c).object = .error fault.toError := by
  change ((w.managerFiles c).map _).mapError _ = _
  rw [h]
  rfl

lemma realizes_beforeFiles (s : Store) (w : Workflow) :
    List.Forall₂ s.Realizes (w.objectsBeforeFiles.map .of) w.objectsBeforeFiles := by
  rw [List.forall₂_map_left_iff, List.forall₂_same]
  intro r _
  exact realizes_of r

lemma realizes_wanted {s : Store} {files : TextMap String}
    (h : s.contains w.filesKey = false → w.managerFiles c = .ok files) :
    List.Forall₂ s.Realizes (w.wanted c) (w.objectsWith c files) := by
  apply List.rel_append (realizes_beforeFiles s w)
  refine .cons ⟨rfl, fun hs => object_wantedManagerFiles (h hs)⟩ (.cons (realizes_of _) .nil)

lemma converge_creates (h : desired.validate c = .ok w) (hu : w.identity.uid = some uid)
    {s : Store} {files : TextMap String}
    (hfiles : s.contains w.filesKey = false → w.managerFiles c = .ok files) :
    (s.converge stamps c desired).result = .ok ⟨w.name, w.inNamespace,
        w.dependencyOrder.filter fun key => !s.contains key,
        w.dependencyOrder.filter fun key => s.contains key⟩ ∧
      (s.converge stamps c desired).state =
        s.putAll stamps (s.newFor (w.ownerWith uid) (w.objectsWith c files)) := by
  have hreal := realizes_wanted hfiles
  have hran := run_settle stamps (w.ownerWith uid)
    (canSettle_of_realizes hreal (nodup_wanted c w) (storable_wanted h)) w.blankReport
  rw [madeFor_lacking hreal] at hran
  obtain ⟨hresult, hstate⟩ := converge_eq_settle stamps h hu s hran
  refine ⟨?_, hstate⟩
  rw [hresult]
  simp [Report.addAll, Workflow.blankReport, keys_lacking, keys_having, Workflow.keys_wanted]

/-- A store with all that a pass makes is the one that the pass leaves, up to the stamps. -/
lemma agrees_with_pass (h : desired.validate c = .ok w) (hu : w.identity.uid = some uid)
    {s t : Store} {files : TextMap String} (hfiles : w.managerFiles c = .ok files)
    (ht : t = s.putAll stamps (s.newFor (w.ownerWith uid) (w.objectsWith c files))) :
    t = (s.converge stamps c desired).state ∧
      ∀ stamps', t.AgreesUpToStamps (s.converge stamps' c desired).state := by
  have hpass : ∀ stamps', (s.converge stamps' c desired).state =
      s.putAll stamps' (s.newFor (w.ownerWith uid) (w.objectsWith c files)) :=
    fun stamps' => (converge_creates stamps' h hu fun _ => hfiles).2
  refine ⟨ht.trans (hpass stamps).symm, fun stamps' => ?_⟩
  rw [ht, hpass]
  exact Store.agreesUpToStamps_putAll stamps stamps' _ fun _ _ => rfl

lemma converge_stops (h : desired.validate c = .ok w) (hu : w.identity.uid = some uid)
    {s : Store} {fault : Template.Fault} (hs : s.contains w.filesKey = false)
    (hfault : w.managerFiles c = .error fault) :
    (s.converge stamps c desired).result = .error fault.toError ∧
      (s.converge stamps c desired).state =
        s.putAll stamps (s.newFor (w.ownerWith uid) w.objectsBeforeFiles) := by
  have hreal := realizes_beforeFiles s w
  have hnodup := nodup_wanted c w
  have hstorable := storable_wanted h
  unfold Workflow.wanted at hnodup hstorable
  rw [List.map_append, List.nodup_append] at hnodup
  have hsettle : s.CanSettle (w.objectsBeforeFiles.map .of) :=
    canSettle_of_realizes hreal hnodup.1 fun v hv => hstorable v (List.mem_append_left _ hv)
  have hnew : (w.wantedManagerFiles c).key ∉ (w.objectsBeforeFiles.map Wanted.of).map Wanted.key :=
    fun hmem => hnodup.2.2 _ hmem _ List.mem_cons_self rfl
  have hran := run_settle_unmakeable stamps (w.ownerWith uid) hsettle hnew hs
    (object_wantedManagerFiles_error hfault) [.of (w.managerDeployment c)] w.blankReport
  rw [madeFor_lacking hreal] at hran
  exact converge_eq_settle stamps h hu s hran

lemma owners_of_mem_newFor {s : Store} {owner : OwnerReference} {rs : List Resource} {r : Resource}
    (hrs : ∀ r ∈ rs, r.metadata.owners = []) (h : r ∈ s.newFor owner rs) :
    r.metadata.owners = [owner] := by
  obtain ⟨r', hr', rfl⟩ := List.mem_map.mp h
  simp [Resource.withOwner, hrs r' (List.mem_filter.mp hr').1]

/-- The exact effect of one pass on a store in any state. A workflow that is refused leaves the store
alone. Files that are needed and cannot be made end the pass after the objects before them. Otherwise
the pass creates the missing objects, each with the workflow as its only owner, and reports every key
in dependency order. -/
theorem converge_exact_effect (c : Config) (desired : Workflow) (s : Store) :
    let ran := s.converge stamps c desired
    (∀ e, desired.validate c = .error e →
      e.code = "VALIDATION_ERROR" ∧ ran.result = .error e ∧ ran.state = s) ∧
    (∀ w, desired.validate c = .ok w → w.identity.uid = none →
      ran.result = .error (.validation
        ("Workflow '" ++ w.name ++ "' has no uid; owned objects cannot reference it")) ∧
      ran.state = s) ∧
    ∀ w uid, desired.validate c = .ok w → w.identity.uid = some uid →
      w.wantedKeys c = w.dependencyOrder ∧
      (∀ fault, s.contains w.filesKey = false → w.managerFiles c = .error fault →
        let made := s.newFor (w.ownerWith uid) w.objectsBeforeFiles
        ran.result = .error fault.toError ∧
        Store.Gained stamps s ran.state made ∧ (∀ r ∈ made, r.metadata.owners = [w.ownerWith uid]) ∧
        ran.state.contains w.filesKey = false ∧
        ran.state.objects.get? (w.managerDeployment c).key =
          s.objects.get? (w.managerDeployment c).key) ∧
      (∀ files, (s.contains w.filesKey = false → w.managerFiles c = .ok files) →
        let made := s.newFor (w.ownerWith uid) (w.objectsWith c files)
        ran.result = .ok ⟨w.name, w.inNamespace,
          w.dependencyOrder.filter fun key => !s.contains key,
          w.dependencyOrder.filter fun key => s.contains key⟩ ∧
        made.map Resource.key = w.dependencyOrder.filter (fun key => !s.contains key) ∧
        Store.Gained stamps s ran.state made ∧
        ∀ r ∈ made, r.metadata.owners = [w.ownerWith uid]) := by
  intro ran
  refine ⟨?_, ?_, ?_⟩
  · intro e h
    obtain ⟨v, rfl⟩ := Workflow.validate_eq_error h
    have hran : ran = _ := converge_of_prepare_error stamps (prepare_of_validate_error h) s
    rw [hran]
    exact ⟨rfl, rfl, rfl⟩
  · intro w h hu
    have hran : ran = _ := converge_of_prepare_error stamps (prepare_of_no_uid h hu) s
    rw [hran]
    exact ⟨rfl, rfl⟩
  · intro w uid h hu
    refine ⟨Workflow.wantedKeys_eq c w, ?_, ?_⟩
    · intro fault hs hfault made
      obtain ⟨hresult, hstate⟩ := converge_stops stamps h hu hs hfault
      have howners : ∀ r ∈ w.objectsBeforeFiles, r.metadata.owners = [] :=
        fun r hr => Workflow.owners_of_mem_objectsBeforeFiles hr
      have hnodup := w.nodup_keys_objectsWith c ∅
      unfold Workflow.objectsWith at hnodup
      rw [List.map_append, List.nodup_append] at hnodup
      have hgained : Store.Gained stamps s ran.state made := hstate ▸ gained_newFor stamps hnodup.1
      have hother : ∀ key, key ∈ [w.filesKey, (w.managerDeployment c).key] →
          ran.state.objects.get? key = s.objects.get? key := by
        intro key hkey
        apply hgained.nothingElse
        rw [keys_newFor, List.mem_filter]
        exact fun hmem => hnodup.2.2 key hmem.1 key hkey rfl
      refine ⟨hresult, hgained, fun r hr => owners_of_mem_newFor howners hr, ?_, ?_⟩
      · rw [Store.contains, SortedMap.contains_eq_false_iff, hother _ (by simp)]
        exact (SortedMap.contains_eq_false_iff _ _).mp hs
      · exact hother _ (by simp)
    · intro files hfiles made
      obtain ⟨hresult, hstate⟩ := converge_creates stamps h hu hfiles
      have hgained : Store.Gained stamps s ran.state made :=
        hstate ▸ gained_newFor_objectsWith s _ c w files stamps
      refine ⟨hresult, keys_newFor_objectsWith s _ c w files, hgained,
        fun r hr => owners_of_mem_newFor ?_ hr⟩
      exact fun r hr => Workflow.owners_of_mem_objectsWith hr

end WorkflowOperator
