import WorkflowOperator.Proofs.Job.Decoding

/-!
# The registry that a job document names

The parts of a stage stand in its document under their keys, whatever the texts in them and the blocks
after them are read as. The host of the registry, if it is a shell word, is read as it is.
-/

namespace WorkflowOperator

open Text Yaml Yaml.Value Yaml.Reader

lemma keptByQuotes_of_isShellWord {s : String} (h : isShellWord s = true) :
    KeptByQuotes s.toList := by
  have hchar : ∀ c ∈ s.toList, isSeparator c = false := by
    intro c hc
    have hc := List.all_eq_true.mp h c hc
    by_contra hseparator
    rw [Bool.not_eq_false, isSeparator, Bool.or_eq_true, beq_iff_eq, beq_iff_eq] at hseparator
    rw [← Char.ofNat_toNat c] at hc
    rcases hseparator with hcode | hcode
    · rw [hcode] at hc
      exact absurd hc (by decide)
    · rw [hcode] at hc
      exact absurd hc (by decide)
  refine ⟨not_mem_of_isShellWord h (by decide), List.Pairwise.isChain ?_⟩
  refine List.pairwise_of_forall_mem_list fun a ha b hb => ⟨?_, ?_⟩
  · rintro ⟨-, hseparator⟩
    rw [hchar b hb] at hseparator
    cases hseparator
  · rintro ⟨hseparator, -⟩
    rw [hchar a ha] at hseparator
    cases hseparator

namespace ResolvedJob

variable {j : ResolvedJob} {script text : String}

lemma prefix_tokens {v : Value} (hv : ofText (j.writtenDocument script) = .ok v) :
    ∃ hkeys : ∀ e ∈ j.step.properties.toList, KeptByQuotes e.1.toList,
      .blockMappingStart :: (j.frontEntries hkeys).flatMap (fun e => e.allTokens) <+:
        Yaml.tokens (j.writtenDocument script).toList := by
  obtain ⟨hkeys, l, hl⟩ := j.exists_blocksOutcome script hv
  refine ⟨hkeys, ?_⟩
  cases hl with
  | kept hkept hpairs htokens => exact ⟨_, by simpa using htokens.symm⟩
  | broken hbroken hnames hpairs hcut =>
    exact (List.prefix_append _ _).trans (by simpa using hcut)

lemma part_of_document (h : j.document script = .ok text) :
    ∃ entries, Value.ofText text = .ok (.mapping entries) ∧
      ∀ p ∈ j.parts, (.string p.key, p.valued.value) ∈ entries := by
  obtain ⟨rfl, v, hv⟩ := document_eq_ok_iff.mp h
  obtain ⟨hkeys, hcut⟩ := prefix_tokens hv
  have hnames : ((j.frontEntries hkeys).map fun e => e.pair.1).Nodup := by
    have hall := j.nodup_entries script hkeys (l := []) List.nil_prefix
    rwa [List.append_nil] at hall
  obtain ⟨entries, hprefix, rfl⟩ := entries_of_ofText hnames hcut hv
  refine ⟨entries, hv, fun p hp => hprefix.subset ?_⟩
  rw [List.map_map]
  have hmem : p.valued ∈ j.frontEntries hkeys :=
    List.mem_append_left _ (List.mem_map_of_mem hp)
  have hpair : p.valued.pair.1 = p.key := by
    rw [ValuedEntry.pair, p.key_valued, String.ofList_toList]
  exact List.mem_map.mpr ⟨p.valued, hmem, by simp [← hpair, ValuedEntry.pair]⟩

lemma host_of_document (h : j.document script = .ok text)
    (hhost : isShellWord j.registry.host = true) :
    ∃ entries registry, Value.ofText text = .ok (.mapping entries) ∧
      (.string "registry", .mapping registry) ∈ entries ∧
        (.string "host", .string j.registry.host) ∈ registry := by
  obtain ⟨entries, hv, hparts⟩ := part_of_document h
  have hfound : (LineValue.quoted j.registry.host).found = .string j.registry.host :=
    (LineValue.found_eq_value_iff _).mpr (keptByQuotes_of_isShellWord hhost)
  let host : DocumentField := .mk "host" "yaml_registry_host" (.quoted j.registry.host)
  have hregistry := hparts (.group "registry" host j.registryFields (by decide)
    ((j.registryFields_keys.cons_cons "host").nodup (by decide))) (by simp [parts, host])
  refine ⟨entries, _, hv, hregistry, ?_⟩
  have hentry : ((.string (String.ofList (host.valued 0).key), (host.valued 0).value) : Value × Value) =
      (.string "host", .string j.registry.host) := by
    rw [← hfound]
    exact congrArg (fun key => (Value.string key, _)) String.ofList_toList
  exact List.mem_map.mpr ⟨host.valued 0, List.mem_cons_self, hentry⟩

end ResolvedJob

namespace Workflow

variable {c : Config} {w : Workflow} {j : JobStep}

/-- A stage that names no host uses the workflow's registry. -/
lemma host_resolveRegistry (h : j.registry.host = "") :
    (w.resolveRegistry j).host = w.registryAddress := by
  unfold resolveRegistry
  split
  · rw [h]
    rfl
  · rfl

lemma assemble_eq_ok_iff {a : AssembledJob} : w.assemble c j = .ok a ↔ ∃ script document,
    (w.resolve c j).script c.tools = .ok script ∧ (w.resolve c j).document script = .ok document ∧
      a = ⟨(w.resolve c j).step.name, script, document⟩ := by
  simp only [assemble, bind_eq_ok_iff]
  constructor
  · rintro ⟨script, hscript, document, hdocument, ⟨⟩⟩
    exact ⟨script, document, hscript, hdocument, rfl⟩
  · rintro ⟨script, document, hscript, hdocument, rfl⟩
    exact ⟨script, hscript, document, hdocument, rfl⟩

lemma host_of_assemble {a : AssembledJob} (ha : w.assemble c j = .ok a) (hhost : j.registry.host = "")
    (hword : isShellWord w.registryAddress = true) :
    ∃ entries registry, Value.ofText a.document = .ok (.mapping entries) ∧
      (.string "registry", .mapping registry) ∈ entries ∧
        (.string "host", .string w.registryAddress) ∈ registry := by
  have hresolved : (w.resolve c j).registry.host = w.registryAddress := host_resolveRegistry hhost
  obtain ⟨script, document, -, hdocument, rfl⟩ := assemble_eq_ok_iff.mp ha
  rw [← hresolved] at hword ⊢
  exact ResolvedJob.host_of_document hdocument hword

end Workflow

end WorkflowOperator
