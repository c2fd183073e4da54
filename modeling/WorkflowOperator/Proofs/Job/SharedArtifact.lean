import WorkflowOperator.Proofs.Job.FilledFragments
import WorkflowOperator.Proofs.Job.RegistryHost
import WorkflowOperator.Proofs.Text.Lines

/-!
# Artifacts that stages share

A stage pulls what another one pushed. Their scripts are filled in apart, each with the settings of its
own stage, and are read line by line; yet where both use one registry, the same identifier of the job
and the same registry are bound first, and the last command that pushes names the same artifact as the
first command that pulls.
-/

namespace WorkflowOperator

open Template Text

/-! ### Reading a script -/

/-- The first line of a script that binds a variable. -/
def bindingLine? (name script : String) : Option (List Char) :=
  (splitLines script.toList).find? (name ++ "=").toList.isPrefixOf

/-- Whether a line calls the registry client to do something. -/
def isClientCall (verb : String) (line : List Char) : Bool :=
  ("oras " ++ verb ++ " ").toList.isPrefixOf (line.dropWhile (· == ' '))

/-- The calls of the registry client in a script, in order. -/
def clientCalls (verb script : String) : List (List Char) :=
  (splitLines script.toList).filter (isClientCall verb)

/-- The artifact in the registry that a line names. -/
def artifact? (line : List Char) : Option (List Char) :=
  (parts ' ' line).find? "$registry/".toList.isPrefixOf

/-- The artifact that a script pulls first. -/
def pulledArtifact? (script : String) : Option (List Char) :=
  (clientCalls "pull" script).head?.bind artifact?

/-- The artifact that a script pushes last. -/
def pushedArtifact? (script : String) : Option (List Char) :=
  (clientCalls "push" script).getLast?.bind artifact?

/-- The artifact of a tag in the shared repository of the stages. -/
def artifactRef (tag : String) : String := "$registry/$\x7bjobid\x7d:" ++ tag

/-! ### Lines that are filled in -/

namespace Template

variable {b : Bindings}

lemma notMem_fill {c : Char} (hvalues : ∀ name value, b.get? name = some value → c ∉ value.toList)
    {s : String} (hs : c ∉ s.toList) : c ∉ (fill b s).toList := by
  have hvalue : ∀ name, c ∉ b.value name := by
    intro name
    unfold Bindings.value
    cases hget : b.get? name with
    | none => simp
    | some value => exact hvalues name value hget
  rw [toList_fill]
  generalize s.toList = s at hs
  induction s using readFromLeft with
  | nil => simp [pieces]
  | placeholder name written rest hspells ih =>
    rw [List.mem_append, not_or] at hs
    rw [pieces_spelled hspells, List.flatMap_cons, List.mem_append, not_or]
    exact ⟨hvalue name, ih hs.2⟩
  | char d rest hplain ih =>
    rw [List.mem_cons, not_or] at hs
    rw [pieces_plain hplain, List.flatMap_cons, List.mem_append, not_or]
    exact ⟨by simpa [Piece.replaced] using hs.1, ih hs.2⟩

/-- What stands before the first opening brace of a text. -/
def stem (s : String) : List Char := s.toList.takeWhile (· != '{')

lemma stem_prefix_fill (s : String) : stem s <+: (fill b s).toList := by
  have hstem : '{' ∉ stem s := by
    intro hmem
    have hc := List.all_eq_true.mp List.all_takeWhile _ hmem
    exact absurd hc (by decide)
  have hcopy : ∀ l : List Char, (l.map Piece.char).flatMap (Piece.replaced b.value) = l := by
    intro l
    rw [List.flatMap_map]
    exact List.flatMap_singleton' l
  have hsplit : s.toList = stem s ++ s.toList.dropWhile (· != '{') :=
    List.takeWhile_append_dropWhile.symm
  rw [toList_fill, hsplit, pieces_append hstem, List.flatMap_append, hcopy]
  exact List.prefix_append _ _

end Template

def filledLines (b : Bindings) (lines : List String) : List (List Char) :=
  lines.map fun l => (fill b l).toList

lemma splitLines_asLines {b : Bindings}
    (hvalues : ∀ name value, b.get? name = some value → '\n' ∉ value.toList) {lines : List String}
    (h : ∀ l ∈ lines, '\n' ∉ l.toList) (rest : List Char) :
    splitLines ((asLines (lines.map (fill b))).toList ++ rest) =
      filledLines b lines ++ splitLines rest := by
  rw [toList_asLines]
  induction lines with
  | nil => rfl
  | cons l lines ih =>
    rw [List.forall_mem_cons] at h
    rw [List.map_cons, List.flatMap_cons, List.append_assoc, List.append_assoc,
      List.singleton_append, splitLines, parts_append, parts_of_notMem (notMem_fill hvalues h.1),
      ← splitLines, ih h.2]
    rfl

namespace Fragment

lemma newline_notMem_of_mem_lines {f : Fragment} : ∀ l ∈ f.lines, '\n' ∉ l.toList := by
  have hall : ∀ l ∈ libraryLines, '\n' ∉ l.toList := by decide +kernel
  exact fun l hl => hall l (mem_libraryLines hl)

end Fragment

namespace ResolvedJob

variable {tools : ToolSource} {j : ResolvedJob} {b : Bindings} {out : String}

lemma newline_notMem_of_get (hb : j.scriptBindings tools = .ok b) :
    ∀ name value, b.get? name = some value → '\n' ∉ value.toList := by
  intro name value hget hmem
  have hwords := (scriptBindings_eq_ok_iff.mp hb).1
  have hline : Bindings.breaksLine value = false := by
    rcases mem_scriptValues_cases hwords _ (mem_of_scriptBindings hb hget) with heq | hword
    · rw [(Prod.mk.inj heq).2]
      exact Bindings.breaksLine_variableOr (by decide) (hwords _ (by simp [givenWords]))
    · exact Bindings.breaksLine_of_isShellWord hword
  exact (Bindings.breaksLine_eq_false_iff.mp hline _ hmem).1 rfl

lemma script_eq_filled_lines (h : j.step.script ≠ "") (hout : j.script tools = .ok out) :
    ∃ b, j.scriptBindings tools = .ok b ∧ out = asLines (j.leadingLines.map (fill b)) ++
      (fill b j.step.script ++ asLines (j.trailingLines.map (fill b))) := by
  rw [script_eq tools h, bind_eq_ok_iff, compose_fragments h] at hout
  obtain ⟨b, hb, hrender⟩ := hout
  obtain ⟨-, -, rfl⟩ := render_ofText_ok_iff.mp hrender
  refine ⟨b, hb, ?_⟩
  rw [fill_append_of_isCut (isCut_asLines not_isMalformed_of_mem_leadingLines _),
    fill_append_of_isCut isCut_script, fill_asLines not_isMalformed_of_mem_leadingLines,
    fill_asLines not_isMalformed_of_mem_trailingLines]

lemma trailingLines_eq (h : j.registry.push ≠ "") : j.trailingLines =
    Fragment.when (!endsLine j.step.script) [""] ++ "" :: Fragment.pushLines.tail := by
  have hpush : (!j.registry.push.isEmpty) = true := by simpa using h
  rw [trailingLines, trailing, hpush]
  rfl

lemma newline_notMem_of_mem_leadingLines : ∀ l ∈ j.leadingLines, '\n' ∉ l.toList := by
  intro l hl
  obtain ⟨f, -, hf⟩ := List.mem_flatMap.mp hl
  exact Fragment.newline_notMem_of_mem_lines l hf

lemma splitLines_pushLines
    (hvalues : ∀ name value, b.get? name = some value → '\n' ∉ value.toList) :
    splitLines (asLines (Fragment.pushLines.tail.map (fill b))).toList =
      filledLines b Fragment.pushLines.tail ++ [[]] := by
  have hlines : ∀ l ∈ Fragment.pushLines.tail, '\n' ∉ l.toList :=
    fun l hl => Fragment.newline_notMem_of_mem_lines (f := .pushArtifact) l (List.mem_of_mem_tail hl)
  have hsplit := splitLines_asLines hvalues hlines []
  rwa [List.append_nil] at hsplit

/-- A script starts with the lines before the commands, and if it pushes it ends with those that do. -/
lemma lines_of_script (h : j.step.script ≠ "") (hout : j.script tools = .ok out) :
    ∃ b, j.scriptBindings tools = .ok b ∧ filledLines b j.leadingLines <+: splitLines out.toList ∧
      (j.registry.push ≠ "" →
        filledLines b Fragment.pushLines.tail ++ [[]] <:+ splitLines out.toList) := by
  obtain ⟨b, hb, rfl⟩ := script_eq_filled_lines h hout
  have hvalues := newline_notMem_of_get hb
  refine ⟨b, hb, ?_, fun hpush => ?_⟩
  · rw [String.toList_append, splitLines_asLines hvalues newline_notMem_of_mem_leadingLines]
    exact List.prefix_append _ _
  · -- the first line of those that push ends the last line of the commands
    have hempty : fill b "" = "" := fill_plain not_hasPair_nil
    have htext : ∃ front : List Char, (asLines (j.leadingLines.map (fill b)) ++
        (fill b j.step.script ++ asLines (j.trailingLines.map (fill b)))).toList =
          front ++ '\n' :: (asLines (Fragment.pushLines.tail.map (fill b))).toList := by
      rw [trailingLines_eq hpush, List.map_append, List.map_cons, hempty, asLines_append, asLines_cons]
      exact ⟨(asLines (j.leadingLines.map (fill b)) ++ (fill b j.step.script ++
        asLines ((Fragment.when (!endsLine j.step.script) [""]).map (fill b)))).toList, by simp⟩
    obtain ⟨front, htext⟩ := htext
    rw [htext, splitLines, parts_append, ← splitLines, ← splitLines, splitLines_pushLines hvalues]
    exact List.suffix_append _ _

def jobidLine (j : ResolvedJob) : String :=
  "jobid=\"" ++ Bindings.variableOr jobidVariable j.jobid ++ "\""

def registryLine (j : ResolvedJob) : String := "registry=\"" ++ j.registry.host ++ "\""

lemma exists_leading (hb : j.scriptBindings tools = .ok b) : ∃ more,
    filledLines b j.leadingLines = [] :: j.jobidLine.toList ::
      ("outpath=\"" ++ j.step.workdir ++ "\"").toList :: j.registryLine.toList :: more := by
  have hjobid : b.textOf "jobid" = Bindings.variableOr jobidVariable j.jobid :=
    textOf_of_mem hb (by simp [scriptValues])
  have houtpath : b.textOf "outpath" = j.step.workdir := textOf_of_mem hb (by simp [scriptValues])
  have hregistry : b.textOf "registry" = j.registry.host := textOf_of_mem hb (by simp [scriptValues])
  have hlines : ∃ rest, j.leadingLines =
      Fragment.bindingLines ⟨true, true, j.step.config.tasks.isSome⟩ ++ rest := by
    simp only [leadingLines, leading, List.flatMap_append, List.flatMap_cons, Fragment.lines,
      List.append_assoc]
    exact ⟨_, rfl⟩
  obtain ⟨rest, hlines⟩ := hlines
  have hmap : filledLines b j.leadingLines = (j.leadingLines.map (fill b)).map String.toList := by
    rw [List.map_map]
    rfl
  rw [hmap, hlines, List.map_append, Fragment.map_fill_bindingLines, Fragment.filledBindingLines,
    hjobid, houtpath, hregistry]
  exact ⟨_, rfl⟩

lemma bindingLines_of_script (h : j.step.script ≠ "") (hout : j.script tools = .ok out) :
    bindingLine? "jobid" out = some j.jobidLine.toList ∧
      bindingLine? "registry" out = some j.registryLine.toList := by
  obtain ⟨b, hb, ⟨rest, hlines⟩, -⟩ := lines_of_script h hout
  obtain ⟨more, hmore⟩ := exists_leading hb
  unfold bindingLine?
  rw [← hlines, hmore]
  simp only [List.cons_append]
  constructor
  · rw [List.find?_cons_of_neg (by decide), List.find?_cons_of_pos]
    simp [jobidLine]
  · rw [List.find?_cons_of_neg (by decide), List.find?_cons_of_neg, List.find?_cons_of_neg,
      List.find?_cons_of_pos]
    · simp [registryLine]
    · simp
    · simp [jobidLine]

end ResolvedJob

/-! ### Calls of the registry client -/

namespace Fragment

def pullCall : String :=
  "oras pull $registry/$\x7bjobid\x7d:" ++ slot "pull_tag" ++ " " ++ slot "plain_http_flag"

def pushCall : String :=
  "    oras push " ++ slot "plain_http_flag" ++ " $registry/$\x7bjobid\x7d:" ++
    slot "push_tag" ++ " ."

end Fragment

lemma artifact_eq {front word back : List Char}
    (hfront : (parts ' ' front).find? "$registry/".toList.isPrefixOf = none) (hspace : ' ' ∉ word)
    (hword : "$registry/".toList.isPrefixOf word = true) :
    artifact? (front ++ ' ' :: (word ++ ' ' :: back)) = some word := by
  rw [artifact?, parts_append, parts_append, parts_of_notMem hspace, List.find?_append, hfront,
    Option.none_or, List.singleton_append, List.find?_cons_of_pos hword]

lemma toList_artifactRef (tag : String) :
    (artifactRef tag).toList = "$registry/".toList ++ ("$\x7bjobid\x7d:".toList ++ tag.toList) := by
  unfold artifactRef
  rw [String.toList_append]
  rfl

lemma isPrefixOf_artifactRef (tag : String) :
    "$registry/".toList.isPrefixOf (artifactRef tag).toList = true := by
  rw [List.isPrefixOf_iff_prefix, toList_artifactRef]
  exact List.prefix_append _ _

lemma space_notMem_artifactRef {tag : String} (h : isShellWord tag = true) :
    ' ' ∉ (artifactRef tag).toList := by
  rw [toList_artifactRef, List.mem_append, List.mem_append, not_or, not_or]
  exact ⟨by decide, by decide, not_mem_of_isShellWord h (by decide)⟩

lemma Fragment.fill_pullCall (b : Bindings) : fill b pullCall =
    "oras pull " ++ (artifactRef (b.textOf "pull_tag") ++ (" " ++ b.textOf "plain_http_flag")) := by
  have hstart : "oras pull $registry/$\x7bjobid\x7d:" =
      "oras pull " ++ "$registry/$\x7bjobid\x7d:" := by decide
  unfold pullCall artifactRef
  simp (disch := decide +kernel) only [String.append_assoc, fill_plain_append, fill_slot_append,
    fill_slot]
  rw [hstart, String.append_assoc]

lemma Fragment.fill_pushCall (b : Bindings) : fill b pushCall = "    oras push " ++
    (b.textOf "plain_http_flag" ++ (" " ++ (artifactRef (b.textOf "push_tag") ++ " ."))) := by
  have hmiddle : " $registry/$\x7bjobid\x7d:" = " " ++ "$registry/$\x7bjobid\x7d:" := by decide
  unfold pushCall artifactRef
  simp (disch := decide +kernel) only [String.append_assoc, fill_plain_append, fill_slot_append,
    fill_plain]
  rw [hmiddle, String.append_assoc]

/-- Whether a line that starts in a certain way may call the registry client. -/
def mayCall (verb : String) (start : List Char) : Bool :=
  let word := start.dropWhile (· == ' ')
  ("oras " ++ verb ++ " ").toList.isPrefixOf word || word.isPrefixOf ("oras " ++ verb ++ " ").toList

lemma mayCall_of_isClientCall {verb : String} {start rest : List Char}
    (h : isClientCall verb (start ++ rest) = true) : mayCall verb start = true := by
  rw [isClientCall, List.isPrefixOf_iff_prefix, List.dropWhile_append] at h
  rw [mayCall, Bool.or_eq_true, List.isPrefixOf_iff_prefix, List.isPrefixOf_iff_prefix]
  split at h
  next hempty =>
    rw [List.isEmpty_iff] at hempty
    rw [hempty]
    exact Or.inr List.nil_prefix
  next => exact List.prefix_or_prefix_of_prefix h (List.prefix_append _ _)

namespace Fragment

/-- The lines of a script that pulls before it does. -/
def linesBeforePull (k : Knobs) : List String :=
  (preamble k).lines ++ (installTool.lines ++ pullLines.take 7)

/-- No line before the one that pulls does so, whatever is filled in. -/
lemma isClientCall_of_mem_linesBeforePull {k : Knobs} {b : Bindings} :
    ∀ l ∈ linesBeforePull k, isClientCall "pull" (fill b l).toList = false := by
  intro l hl
  have hall : ∀ l ∈ linesBeforePull ⟨true, true, true⟩,
      (¬ HasPair l.toList ∧ isClientCall "pull" l.toList = false) ∨
        mayCall "pull" (stem l) = false := by decide +kernel
  have hmem : l ∈ linesBeforePull ⟨true, true, true⟩ := by
    rcases List.mem_append.mp hl with hl | hl
    · exact List.mem_append_left _ (mem_lines_preamble hl)
    · exact List.mem_append_right _ hl
  rcases hall l hmem with ⟨hplain, hcall⟩ | hstem
  · rwa [fill_plain hplain]
  · obtain ⟨rest, hrest⟩ := stem_prefix_fill (b := b) l
    rw [← hrest]
    by_contra hcall
    rw [mayCall_of_isClientCall (Bool.eq_true_of_not_eq_false hcall)] at hstem
    cases hstem

end Fragment

namespace ResolvedJob

variable {tools : ToolSource} {j : ResolvedJob} {b : Bindings} {out : String}

lemma textOf_flag (hb : j.scriptBindings tools = .ok b) :
    b.textOf "plain_http_flag" = plainHttpFlag j.registry.plainHttp :=
  textOf_of_mem hb (by simp [scriptValues])

lemma isShellWord_tags (hb : j.scriptBindings tools = .ok b) :
    isShellWord j.registry.pull = true ∧ isShellWord j.registry.push = true := by
  have hwords := (scriptBindings_eq_ok_iff.mp hb).1
  exact ⟨hwords _ (by simp [givenWords]), hwords _ (by simp [givenWords])⟩

lemma toList_pullCall (hb : j.scriptBindings tools = .ok b) (hpull : j.registry.pull ≠ "") :
    (fill b Fragment.pullCall).toList = "oras pull".toList ++ ' ' ::
      ((artifactRef j.registry.pull).toList ++ ' ' ::
        (plainHttpFlag j.registry.plainHttp).toList) := by
  have htag : b.textOf "pull_tag" = j.registry.pull :=
    textOf_of_mem hb (by simp [scriptValues, Fragment.when, hpull])
  rw [Fragment.fill_pullCall, htag, textOf_flag hb]
  simp only [String.toList_append]
  rfl

lemma toList_pushCall (hb : j.scriptBindings tools = .ok b) (hpush : j.registry.push ≠ "") :
    (fill b Fragment.pushCall).toList =
      ("    oras push ".toList ++ (plainHttpFlag j.registry.plainHttp).toList) ++ ' ' ::
        ((artifactRef j.registry.push).toList ++ ' ' :: ['.']) := by
  have htag : b.textOf "push_tag" = j.registry.push :=
    textOf_of_mem hb (by simp [scriptValues, Fragment.when, hpush])
  rw [Fragment.fill_pushCall, htag, textOf_flag hb]
  simp only [String.toList_append, List.append_assoc]
  rfl

lemma leadingLines_eq (h : j.registry.pull ≠ "") : j.leadingLines =
    Fragment.linesBeforePull ⟨true, true, j.step.config.tasks.isSome⟩ ++ [Fragment.pullCall] := by
  have hpull : (!j.registry.pull.isEmpty) = true := by simpa using h
  have hlines : Fragment.pullLines = Fragment.pullLines.take 7 ++ [Fragment.pullCall] := rfl
  rw [leadingLines, leading, hpull]
  simp only [Fragment.when, if_true, List.flatMap_append, List.flatMap_cons, List.flatMap_nil,
    Fragment.linesBeforePull, List.append_nil, List.append_assoc]
  rw [← hlines]
  rfl

/-- The first thing that a script pulls is pulled before the commands. -/
lemma exists_clientCalls_pull {lines : List (List Char)} (hb : j.scriptBindings tools = .ok b)
    (hpull : j.registry.pull ≠ "") (hlines : filledLines b j.leadingLines <+: lines) :
    ∃ later, lines.filter (isClientCall "pull") = (fill b Fragment.pullCall).toList :: later := by
  obtain ⟨rest, rfl⟩ := hlines
  have hcall : isClientCall "pull" (fill b Fragment.pullCall).toList = true := by
    rw [toList_pullCall hb hpull, isClientCall, List.isPrefixOf_iff_prefix]
    exact ⟨_, rfl⟩
  have hbefore : (filledLines b (Fragment.linesBeforePull
      ⟨true, true, j.step.config.tasks.isSome⟩)).filter (isClientCall "pull") = [] := by
    rw [List.filter_eq_nil_iff]
    intro line hline
    obtain ⟨l, hl, rfl⟩ := List.mem_map.mp hline
    rw [Fragment.isClientCall_of_mem_linesBeforePull l hl]
    exact Bool.false_ne_true
  rw [leadingLines_eq hpull, filledLines, List.map_append, ← filledLines, List.append_assoc,
    List.filter_append, hbefore, List.nil_append, List.map_singleton, List.singleton_append,
    List.filter_cons_of_pos hcall]
  exact ⟨_, rfl⟩

/-- The last thing that a script pushes is pushed after the commands. -/
lemma exists_clientCalls_push {lines : List (List Char)} (hb : j.scriptBindings tools = .ok b)
    (hpush : j.registry.push ≠ "")
    (hlines : filledLines b Fragment.pushLines.tail ++ [[]] <:+ lines) :
    ∃ earlier, lines.filter (isClientCall "push") =
      earlier ++ [(fill b Fragment.pushCall).toList] := by
  obtain ⟨front, rfl⟩ := hlines
  have hcall : isClientCall "push" (fill b Fragment.pushCall).toList = true := by
    rw [toList_pushCall hb hpush, isClientCall, List.isPrefixOf_iff_prefix, List.append_assoc]
    exact ⟨_, rfl⟩
  have hpushLines : Fragment.pushLines.tail =
      Fragment.pushLines.tail.take 5 ++ Fragment.pushCall :: Fragment.pushLines.drop 7 := rfl
  -- what follows has no placeholders, so it is as it stands in the fragment
  have hafter : filledLines b (Fragment.pushLines.drop 7) =
      (Fragment.pushLines.drop 7).map String.toList := by
    have hplain : ∀ l ∈ Fragment.pushLines.drop 7, ¬ HasPair l.toList := by decide
    exact List.map_congr_left fun l hl => by rw [fill_plain (hplain l hl)]
  have hnone : (filledLines b (Fragment.pushLines.drop 7) ++ [[]]).filter
      (isClientCall "push") = [] := by
    rw [hafter]
    decide
  rw [hpushLines, filledLines, List.map_append, List.map_cons, List.append_assoc, List.cons_append,
    ← filledLines, ← filledLines, List.filter_append, List.filter_append,
    List.filter_cons_of_pos hcall, hnone, ← List.append_assoc]
  exact ⟨_, rfl⟩

lemma pulledArtifact_of_script (h : j.step.script ≠ "") (hpull : j.registry.pull ≠ "")
    (hout : j.script tools = .ok out) :
    pulledArtifact? out = some (artifactRef j.registry.pull).toList := by
  obtain ⟨b, hb, hlines, -⟩ := lines_of_script h hout
  obtain ⟨later, hcalls⟩ := exists_clientCalls_pull hb hpull hlines
  rw [pulledArtifact?, clientCalls, hcalls, List.head?_cons, Option.bind_some,
    toList_pullCall hb hpull]
  exact artifact_eq (by decide) (space_notMem_artifactRef (isShellWord_tags hb).1)
    (isPrefixOf_artifactRef _)

lemma pushedArtifact_of_script (h : j.step.script ≠ "") (hpush : j.registry.push ≠ "")
    (hout : j.script tools = .ok out) :
    pushedArtifact? out = some (artifactRef j.registry.push).toList := by
  obtain ⟨b, hb, -, hlines⟩ := lines_of_script h hout
  obtain ⟨earlier, hcalls⟩ := exists_clientCalls_push hb hpush (hlines hpush)
  have hflag : (Text.parts ' ' ("    oras push ".toList ++
      (plainHttpFlag j.registry.plainHttp).toList)).find? "$registry/".toList.isPrefixOf = none := by
    cases j.registry.plainHttp <;> decide
  rw [pushedArtifact?, clientCalls, hcalls, List.getLast?_concat, Option.bind_some,
    toList_pushCall hb hpush]
  exact artifact_eq hflag (space_notMem_artifactRef (isShellWord_tags hb).2)
    (isPrefixOf_artifactRef _)

end ResolvedJob

/-! ### Stages of one workflow -/

namespace Workflow

/-- A stage pulls what another one of its workflow pushed. If both have commands and are filled in, if
the tag that one pushes is the one that the other pulls, and if both use one registry, then the same
identifier and the same registry are bound in both scripts, and the artifact that is pushed is the one
that is pulled. Stages that name no host use the registry of the workflow, whatever their tags. -/
theorem stages_share_artifacts (c : Config) (w : Workflow) :
    (∀ (a b : JobStep) (tag pushing pulling : String), a.script ≠ "" → b.script ≠ "" → tag ≠ "" →
      a.registry.push = tag → b.registry.pull = tag →
      (w.resolve c a).registry.host = (w.resolve c b).registry.host →
      (w.resolve c a).script c.tools = .ok pushing → (w.resolve c b).script c.tools = .ok pulling →
      (∀ script ∈ [pushing, pulling],
        bindingLine? "jobid" script =
          some ("jobid=\"" ++ Bindings.variableOr jobidVariable w.jobid ++ "\"").toList ∧
        bindingLine? "registry" script =
          some ("registry=\"" ++ (w.resolve c a).registry.host ++ "\"").toList) ∧
      pushedArtifact? pushing = some ("$registry/$\x7bjobid\x7d:" ++ tag).toList ∧
      pulledArtifact? pulling = some ("$registry/$\x7bjobid\x7d:" ++ tag).toList) ∧
    ∀ a b : JobStep, a.registry.host = "" → b.registry.host = "" →
      (w.resolve c a).registry.host = w.registryAddress ∧
        (w.resolve c b).registry.host = w.registryAddress := by
  refine ⟨?_, fun a b ha hb => ⟨host_resolveRegistry ha, host_resolveRegistry hb⟩⟩
  intro a b tag pushing pulling ha hb htag hpush hpull hhost hpushing hpulling
  have hpushed : (w.resolve c a).registry.push = tag := (tags_resolveRegistry w a).2.trans hpush
  have hpulled : (w.resolve c b).registry.pull = tag := (tags_resolveRegistry w b).1.trans hpull
  have hartifact := ResolvedJob.pushedArtifact_of_script ha (hpushed.trans_ne htag) hpushing
  have hartifact' := ResolvedJob.pulledArtifact_of_script hb (hpulled.trans_ne htag) hpulling
  obtain ⟨hjobid, hregistry⟩ := ResolvedJob.bindingLines_of_script ha hpushing
  obtain ⟨hjobid', hregistry'⟩ := ResolvedJob.bindingLines_of_script hb hpulling
  rw [hpushed] at hartifact
  rw [hpulled] at hartifact'
  rw [ResolvedJob.registryLine, ← hhost] at hregistry'
  refine ⟨?_, hartifact, hartifact'⟩
  rw [List.forall_mem_cons, List.forall_mem_singleton]
  exact ⟨⟨hjobid, hregistry⟩, hjobid', hregistry'⟩

lemma exists_script_resolve {c : Config} {w : Workflow} {j : JobStep} (h : j.script ≠ "")
    (hwords : ∀ s ∈ (w.resolve c j).givenWords c.tools, isShellWord s = true)
    (hclean : ¬ IsMalformed j.script)
    (hoffered : ∀ name ∈ placeholderNames j.script.toList, name ∈ j.offered) :
    ∃ out, (w.resolve c j).script c.tools = .ok out := by
  refine (ResolvedJob.exists_script_iff h hwords).mpr ⟨?_, fun name hname => ?_⟩
  · rw [hasStrayBraces_ofText_iff]
    exact hclean
  · rw [keys_scriptValues_resolve]
    exact hoffered name (mentions_ofText_iff.mp hname)

/-- A stage that pushes, and tells its number of tasks. -/
def pushingStep : JobStep :=
  { JobStep.running "train" ("echo " ++ slot "push_tag") with
    config := { JobConfig.unset with tasks := some 4 }
    registry := ⟨"report", "", "", none⟩ }

/-- A stage that pulls by an encrypted connection, and has commands that push and bind as well. -/
def fetchingStep : JobStep :=
  { JobStep.running "test" "jobid=1\noras push x\n" with
    registry := ⟨"", "report", "", some false⟩ }

/-- A workflow of a stage that pushes and one that pulls. -/
def relay : Workflow :=
  ((stageless "training" "lab" "1f0a").withStages [pushingStep, fetchingStep]).withDefaults .standard

theorem relay_shares_report : relay.violation? = none ∧ ∃ pushing pulling,
    (relay.resolve .standard pushingStep).script Config.standard.tools = .ok pushing ∧
    (relay.resolve .standard fetchingStep).script Config.standard.tools = .ok pulling ∧
    bindingLine? "jobid" pulling = some "jobid=\"$\x7bJOBID:-training\x7d\"".toList ∧
    pushedArtifact? pushing = some "$registry/$\x7bjobid\x7d:report".toList ∧
    pulledArtifact? pulling = some "$registry/$\x7bjobid\x7d:report".toList := by
  obtain ⟨pushing, hpushing⟩ : ∃ out,
      (relay.resolve .standard pushingStep).script Config.standard.tools = .ok out :=
    exists_script_resolve (by decide +kernel) (by decide +kernel) (by decide +kernel)
      (by decide +kernel)
  obtain ⟨pulling, hpulling⟩ : ∃ out,
      (relay.resolve .standard fetchingStep).script Config.standard.tools = .ok out :=
    exists_script_resolve (by decide +kernel) (by decide +kernel) (by decide +kernel)
      (by decide +kernel)
  obtain ⟨hbound, hpushed, hpulled⟩ := (stages_share_artifacts .standard relay).1 pushingStep
    fetchingStep "report" pushing pulling (by decide +kernel) (by decide +kernel) (by decide) rfl rfl
    ((host_resolveRegistry rfl).trans (host_resolveRegistry rfl).symm) hpushing hpulling
  refine ⟨by decide +kernel, pushing, pulling, hpushing, hpulling, ?_, hpushed, hpulled⟩
  exact (hbound pulling (List.mem_cons_of_mem _ List.mem_cons_self)).1

end Workflow

end WorkflowOperator
