import Mathlib.Data.List.Infix
import Mathlib.Tactic.Lemma
import WorkflowOperator.Yaml.Token.Stream

/-!
# Settled tokens

Marks are put in front of a key only when its colon is reached, at the place where the key began. A
token before all places where a key may still have begun is settled: no step of the reader touches it,
and it is among the tokens of the whole text whatever follows.
-/

namespace WorkflowOperator.Yaml

namespace Reader

/-- Tokens, latest first, that no later character can change. -/
structure Settled (done : List Token) (r : Reader) : Prop where
  tokens : done <:+ r.tokens
  candidate : ∀ k ∈ r.candidate, done.length ≤ k.count
  outer : ∀ o ∈ r.outerCandidates, ∀ k ∈ o, done.length ≤ k.count

/-- A step, if it succeeds, leaves settled tokens as they are. -/
def LeavesSettled (done : List Token) (o : Option Reader) : Prop := ∀ r ∈ o, r.Settled done

variable {done : List Token} {r : Reader}

lemma LeavesSettled.some (h : r.Settled done) : LeavesSettled done (Option.some r) := by
  intro r' hr'
  cases hr'
  exact h

lemma LeavesSettled.bind {α : Type} {o : Option α} {f : α → Option Reader}
    (h : ∀ a ∈ o, LeavesSettled done (f a)) : LeavesSettled done (o.bind f) := by
  intro r' hr'
  obtain ⟨a, ha, hf⟩ := Option.bind_eq_some_iff.mp hr'
  exact h a ha r' hf

lemma LeavesSettled.map {o : Option Reader} {f : Reader → Reader} (h : LeavesSettled done o)
    (hf : ∀ r, r.Settled done → (f r).Settled done) : LeavesSettled done (o.map f) := by
  intro r' hr'
  obtain ⟨a, ha, rfl⟩ := Option.map_eq_some_iff.mp hr'
  exact hf a (h a ha)

lemma LeavesSettled.ite {p : Prop} [Decidable p] {a b : Option Reader} (ha : LeavesSettled done a)
    (hb : LeavesSettled done b) : LeavesSettled done (if p then a else b) := by
  split
  · exact ha
  · exact hb

lemma LeavesSettled.none : LeavesSettled done none := by simp [LeavesSettled]

/-! ### Parts of a step -/

lemma Settled.of_eq {r' : Reader} (h : r.Settled done) (htokens : r'.tokens = r.tokens)
    (hcandidate : r'.candidate = r.candidate) (houter : r'.outerCandidates = r.outerCandidates) :
    r'.Settled done :=
  ⟨htokens ▸ h.tokens, hcandidate ▸ h.candidate, houter ▸ h.outer⟩

lemma Settled.allow (h : r.Settled done) (allowed : Bool) :
    ({ r with keyAllowed := allowed } : Reader).Settled done := h.of_eq rfl rfl rfl

lemma Settled.moveTo (h : r.Settled done) (rest : List Char) : (r.moveTo rest).Settled done :=
  h.of_eq rfl rfl rfl

lemma Settled.push (h : r.Settled done) (t : Token) : (r.push t).Settled done :=
  ⟨h.tokens.trans (List.suffix_cons t r.tokens), h.candidate, h.outer⟩

lemma Settled.putAt (h : r.Settled done) {count : Nat} (hcount : done.length ≤ count) (t : Token) :
    (r.putAt count t).Settled done := by
  obtain ⟨more, hmore⟩ := h.tokens
  refine ⟨?_, h.candidate, h.outer⟩
  have hlen : r.tokens.length - count ≤ more.length := by
    rw [← hmore, List.length_append]
    omega
  have hdrop : done <:+ r.tokens.drop (r.tokens.length - count) := by
    refine ⟨more.drop (r.tokens.length - count), ?_⟩
    rw [← List.drop_append_of_le_length hlen, hmore]
  change done <:+ _ ++ t :: _
  exact hdrop.trans ((List.suffix_cons t _).trans (List.suffix_append _ _))

lemma Settled.openBlock (h : r.Settled done) (column : Nat) {count : Nat}
    (hcount : done.length ≤ count) (t : Token) : (r.openBlock column count t).Settled done := by
  unfold Reader.openBlock
  split
  · exact (h.putAt hcount t).of_eq rfl rfl rfl
  · exact h

lemma Settled.length_le (h : r.Settled done) : done.length ≤ r.tokens.length := h.tokens.length_le

lemma suffix_closing (column indent : Int) (outer : List Int) (tokens : List Token) :
    tokens <:+ (closing column indent outer tokens).2.2 := by
  fun_induction closing column indent outer tokens with
  | case1 => exact List.suffix_cons _ _
  | case2 => exact List.suffix_refl _
  | case3 indent tokens next outer _ ih => exact (List.suffix_cons _ _).trans ih
  | case4 => exact List.suffix_refl _

lemma Settled.closeBlocks (h : r.Settled done) (column : Int) :
    (r.closeBlocks column).Settled done := by
  unfold Reader.closeBlocks
  split
  · exact h
  · exact ⟨h.tokens.trans (suffix_closing column r.indent r.outer r.tokens), h.candidate, h.outer⟩

lemma Settled.toNextToken (h : r.Settled done) : r.toNextToken.Settled done := by
  unfold Reader.toNextToken
  dsimp only
  split
  · exact h.of_eq rfl rfl rfl
  · exact h.of_eq rfl rfl rfl

lemma keepFresh_eq {p : Position} {o o' : Option KeyCandidate} (h : keepFresh? p o = some o') :
    o' = o ∨ o' = none := by
  unfold keepFresh? at h
  split at h
  · cases h
    exact Or.inl rfl
  · split at h
    · split at h
      · cases h
      · cases h
        exact Or.inr rfl
    · cases h
      exact Or.inl rfl

lemma keepFresh_mapM {p : Position} {l l' : List (Option KeyCandidate)}
    (h : l.mapM (keepFresh? p) = some l') : ∀ o ∈ l', o ∈ l ∨ o = none := by
  induction l generalizing l' with
  | nil =>
    cases h
    simp
  | cons o l ih =>
    rw [List.mapM_cons] at h
    obtain ⟨o', ho', h⟩ := Option.bind_eq_some_iff.mp h
    obtain ⟨l₁, hl₁, h⟩ := Option.bind_eq_some_iff.mp h
    cases h
    intro x hx
    rcases List.mem_cons.mp hx with rfl | hx
    · rcases keepFresh_eq ho' with rfl | rfl
      · exact Or.inl List.mem_cons_self
      · exact Or.inr rfl
    · exact (ih hl₁ x hx).imp_left (List.mem_cons_of_mem _)

lemma leavesSettled_dropStale (h : r.Settled done) : LeavesSettled done r.dropStale? := by
  intro r' hr'
  obtain ⟨outer, houter, hr'⟩ := Option.bind_eq_some_iff.mp hr'
  obtain ⟨candidate, hcandidate, hr'⟩ := Option.bind_eq_some_iff.mp hr'
  cases hr'
  refine ⟨h.tokens, ?_, ?_⟩
  · rcases keepFresh_eq hcandidate with rfl | rfl
    · exact h.candidate
    · simp
  · intro o ho k hk
    rcases keepFresh_mapM houter o ho with hmem | rfl
    · exact h.outer o hmem k hk
    · cases hk

lemma leavesSettled_dropCandidate (h : r.Settled done) : LeavesSettled done r.dropCandidate? := by
  unfold dropCandidate?
  split
  · split
    · simp [LeavesSettled]
    · exact .some ⟨h.tokens, by simp, h.outer⟩
  · exact .some h

lemma leavesSettled_noteCandidate (h : r.Settled done) : LeavesSettled done r.noteCandidate? := by
  unfold noteCandidate?
  split
  · refine (leavesSettled_dropCandidate h).map fun r' h' => ⟨h'.tokens, ?_, h'.outer⟩
    intro k hk
    cases hk
    exact h.length_le
  · exact .some h

/-! ### Steps -/

lemma leavesSettled_atEnd (h : r.Settled done) : LeavesSettled done r.atEnd? := by
  have hline : ∀ p, ({ r with position := p } : Reader).Settled done :=
    fun p => h.of_eq rfl rfl rfl
  unfold atEnd?
  refine .bind fun r' hr' => .some (Settled.push (Settled.allow ?_ _) _)
  refine leavesSettled_dropCandidate (Settled.closeBlocks ?_ _) r' hr'
  dsimp only
  split
  · exact h
  · exact hline _

lemma leavesSettled_closeAll (h : r.Settled done) : LeavesSettled done r.closeAll? :=
  (leavesSettled_dropCandidate (h.closeBlocks _)).map fun _ h' => h'.allow false

lemma Settled.pushChar (h : r.Settled done) (t : Token) : (r.pushChar t).Settled done :=
  (h.moveTo _).push t

lemma leavesSettled_openFlow (h : r.Settled done) (t : Token) :
    LeavesSettled done (r.openFlow? t) := by
  refine (leavesSettled_noteCandidate h).map fun r' h' => ?_
  have hopened : ({ r' with
      candidate := none
      outerCandidates := r'.candidate :: r'.outerCandidates
      keyAllowed := true } : Reader).Settled done := by
    refine ⟨h'.tokens, by simp, ?_⟩
    intro o ho k hk
    rcases List.mem_cons.mp ho with rfl | ho
    · exact h'.candidate k hk
    · exact h'.outer o ho k hk
  exact hopened.pushChar t

lemma leavesSettled_closeFlow (h : r.Settled done) (t : Token) :
    LeavesSettled done (r.closeFlow? t) := by
  refine (leavesSettled_dropCandidate h).map fun r' h' => ?_
  have houter : ∀ o rest, r'.outerCandidates = o :: rest →
      ({ r' with candidate := o, outerCandidates := rest } : Reader).Settled done := by
    intro o rest heq
    have hmem : ∀ o' ∈ o :: rest, ∀ k ∈ o', done.length ≤ k.count := heq ▸ h'.outer
    exact ⟨h'.tokens, hmem o List.mem_cons_self,
      fun o' ho' => hmem o' (List.mem_cons_of_mem _ ho')⟩
  dsimp only
  split
  · exact (h'.allow false).pushChar t
  · rename_i o rest heq
    exact ((houter o rest heq).allow false).pushChar t

lemma leavesSettled_flowEntry (h : r.Settled done) : LeavesSettled done r.flowEntry? :=
  (leavesSettled_dropCandidate h).map fun _ h' => (h'.allow true).pushChar _

lemma leavesSettled_blockEntry (h : r.Settled done) : LeavesSettled done r.blockEntry? := by
  unfold blockEntry?
  split
  · exact .none
  · exact (leavesSettled_dropCandidate (h.openBlock _ h.length_le _)).map fun _ h' =>
      (h'.allow _).pushChar _

lemma leavesSettled_explicitKey (h : r.Settled done) : LeavesSettled done r.explicitKey? := by
  unfold explicitKey?
  split
  · exact .none
  · exact (leavesSettled_dropCandidate (h.openBlock _ h.length_le _)).map fun _ h' =>
      (h'.allow _).pushChar _

lemma leavesSettled_value (h : r.Settled done) : LeavesSettled done r.value? := by
  unfold value?
  split
  · rename_i k hk
    have hcount := h.candidate k hk
    have hmarks := (h.putAt hcount .key).openBlock k.position.column hcount .blockMappingStart
    have hdropped : ({ (r.putAt k.count .key).openBlock k.position.column k.count
        .blockMappingStart with candidate := Option.none } : Reader).Settled done :=
      ⟨hmarks.tokens, by simp, hmarks.outer⟩
    exact .some ((hdropped.allow false).pushChar _)
  · split
    · exact .none
    · exact .some (((h.openBlock _ h.length_le _).allow _).pushChar _)

lemma Settled.pushRead (h : r.Settled done) (rest : List Char) (allowed : Bool) (t : Token) :
    ({ r.moveTo rest with keyAllowed := allowed }.push t).Settled done :=
  ((h.moveTo rest).allow allowed).push t

lemma leavesSettled_named (h : r.Settled done) (t : List Char → Token) :
    LeavesSettled done (r.named? t) :=
  .bind fun r' hr' => .bind fun _ _ =>
    .some ((leavesSettled_noteCandidate h r' hr').pushRead _ _ _)

lemma leavesSettled_tag (h : r.Settled done) : LeavesSettled done r.tag? :=
  .bind fun r' hr' => .bind fun _ _ =>
    .some ((leavesSettled_noteCandidate h r' hr').pushRead _ _ _)

lemma leavesSettled_blockScalar (h : r.Settled done) (style : Style) :
    LeavesSettled done (r.blockScalar? style) :=
  .bind fun r' hr' => .bind fun _ _ =>
    .some ((leavesSettled_dropCandidate h r' hr').pushRead _ _ _)

lemma leavesSettled_quotedScalar (h : r.Settled done) (style : Style) :
    LeavesSettled done (r.quotedScalar? style) := by
  refine .bind fun r' hr' => ?_
  have h' := leavesSettled_noteCandidate h r' hr'
  dsimp only
  split
  · exact .bind fun _ _ => .some (h'.pushRead _ _ _)
  · exact .bind fun _ _ => .some (h'.pushRead _ _ _)

lemma leavesSettled_plainScalar (h : r.Settled done) : LeavesSettled done r.plainScalar? :=
  .bind fun r' hr' => .bind fun _ _ =>
    .some ((leavesSettled_noteCandidate h r' hr').pushRead _ _ _)

lemma leavesSettled_dispatch (h : r.Settled done) (c : Char) (rest : List Char) :
    LeavesSettled done (r.dispatch? c rest) := by
  have hclosed : ∀ (after : List Char) (t : Token),
      LeavesSettled done (r.closeAll?.map fun r => (r.moveTo after).push t) :=
    fun after t => (leavesSettled_closeAll h).map fun _ h' => (h'.moveTo after).push t
  have hdirective : LeavesSettled done (r.closeAll?.bind fun r =>
      (Token.readDirective? rest).bind fun out => Option.some ((r.moveTo out.2).push out.1)) :=
    .bind fun r' hr' => .bind fun out _ =>
      .some (((leavesSettled_closeAll h r' hr').moveTo out.2).push out.1)
  unfold dispatch?
  exact .ite hdirective <| .ite (hclosed _ _) <| .ite (hclosed _ _) <|
    .ite (leavesSettled_openFlow h _) <| .ite (leavesSettled_openFlow h _) <|
    .ite (leavesSettled_closeFlow h _) <| .ite (leavesSettled_closeFlow h _) <|
    .ite (leavesSettled_flowEntry h) <| .ite (leavesSettled_blockEntry h) <|
    .ite (leavesSettled_explicitKey h) <| .ite (leavesSettled_value h) <|
    .ite (leavesSettled_named h _) <| .ite (leavesSettled_named h _) <|
    .ite (leavesSettled_tag h) <| .ite (leavesSettled_blockScalar h _) <|
    .ite (leavesSettled_blockScalar h _) <| .ite (leavesSettled_quotedScalar h _) <|
    .ite (leavesSettled_quotedScalar h _) <| .ite (leavesSettled_plainScalar h) .none

lemma leavesSettled_step (h : r.Settled done) : LeavesSettled done r.step? := by
  refine .bind fun r' hr' => ?_
  have h' := (leavesSettled_dropStale h.toNextToken r' hr').closeBlocks r'.position.column
  dsimp only
  split
  · exact leavesSettled_atEnd h'
  · exact leavesSettled_dispatch h' _ _

/-! ### Runs -/

lemma Settled.prefix_settled (h : r.Settled done) : done.reverse <+: r.settled := by
  have hmin : ∀ (counts : List Nat) (n : Nat), done.length ≤ n →
      (∀ k ∈ counts, done.length ≤ k) → done.length ≤ counts.foldl min n := by
    intro counts
    induction counts with
    | nil => exact fun n hn _ => hn
    | cons k counts ih =>
      intro n hn hcounts
      exact ih (min n k) (Nat.le_min.mpr ⟨hn, hcounts k List.mem_cons_self⟩)
        fun k' hk' => hcounts k' (List.mem_cons_of_mem _ hk')
  have hcounts : ∀ k ∈ (r.candidate :: r.outerCandidates).filterMap fun k => k.map (·.count),
      done.length ≤ k := by
    intro n hn
    obtain ⟨o, ho, hcount⟩ := List.mem_filterMap.mp hn
    obtain ⟨k, hk, rfl⟩ := Option.map_eq_some_iff.mp hcount
    rcases List.mem_cons.mp ho with rfl | ho
    · exact h.candidate k hk
    · exact h.outer o ho k hk
  obtain ⟨more, hmore⟩ := h.tokens
  have hdone : done.reverse <+: r.tokens.reverse := by
    rw [← hmore, List.reverse_append]
    exact List.prefix_append _ _
  unfold settled
  refine List.prefix_take_iff.mpr ⟨hdone, ?_⟩
  rw [List.length_reverse]
  exact hmin _ _ h.length_le hcounts

/-- Settled tokens are among those of the whole text. -/
theorem Settled.prefix_finish (h : r.Settled done) : done.reverse <+: r.finish := by
  fun_induction finish r with
  | case1 r hstale => exact h.prefix_settled
  | case2 r fresh hfresh hstep => exact (leavesSettled_dropStale h fresh hfresh).prefix_settled
  | case3 r fresh hfresh next hstep hend =>
    have hnext := leavesSettled_step (leavesSettled_dropStale h fresh hfresh) next hstep
    obtain ⟨more, hmore⟩ := hnext.tokens
    rw [← hmore, List.reverse_append]
    exact List.prefix_append _ _
  | case4 r fresh hfresh next hstep hend hshort ih =>
    exact ih (leavesSettled_step (leavesSettled_dropStale h fresh hfresh) next hstep)
  | case5 r fresh hfresh next hstep hend hshort =>
    exact (leavesSettled_step (leavesSettled_dropStale h fresh hfresh) next hstep).prefix_settled

/-- What a step has settled is among the tokens of the whole text, whether the reader goes on or not. -/
lemma Settled.prefix_finish_of_step {fresh next : Reader} (h : next.Settled done)
    (hfresh : r.dropStale? = some fresh) (hstep : fresh.step? = some next) :
    done.reverse <+: r.finish := by
  rw [finish, hfresh]
  simp only [hstep]
  split
  · obtain ⟨more, hmore⟩ := h.tokens
    rw [← hmore, List.reverse_append]
    exact List.prefix_append _ _
  · split
    · exact h.prefix_finish
    · exact h.prefix_settled

end Reader

end WorkflowOperator.Yaml
