import Mathlib.Data.List.Nodup
import WorkflowOperator.Proofs.Yaml.Core
import WorkflowOperator.Yaml.Decoder

/-!
# Reading back what was written

A text holds a value if its tree is the value's: without anchors and tags, each scalar one that stands for
what it is, and whole numbers in decimal digits. Of such a text a typed reader can tell no more than the
value, so what a reader makes of it is said of the value: by the type of a scalar, by the items of a
list, and entry by entry of a record.
-/

namespace WorkflowOperator.Yaml

namespace Value

/-- Whether a scalar without a tag spells a value. -/
def isSpelledBy (style : Style) (text : String) (v : Value) : Bool :=
  match v, Core.meaning none style text with
  | .null, .null => true
  | .bool b, .bool b' => b' == b
  | .int n, .int n' => n' == n && text == toString n
  | .float x, .float x' => x' == x
  | .string s, .text => text == s
  | _, _ => false

mutual

/-- Whether a node without anchors and tags is how a value is written. -/
def isWrittenAs : Value → Node → Bool
  | .sequence items, .sequence none none nodes => itemsWrittenAs items nodes
  | .mapping entries, .mapping none none nodes => entriesWrittenAs entries nodes
  | v, .scalar none none style text => v.isSpelledBy style text
  | _, _ => false

def itemsWrittenAs : List Value → List Node → Bool
  | [], [] => true
  | v :: items, n :: nodes => v.isWrittenAs n && itemsWrittenAs items nodes
  | _, _ => false

def entriesWrittenAs : List (Value × Value) → List (Node × Node) → Bool
  | [], [] => true
  | (k, v) :: entries, (n, m) :: nodes =>
    k.isWrittenAs n && v.isWrittenAs m && entriesWrittenAs entries nodes
  | _, _ => false

end

/-- A text holds a value: it is a document to its end, and its tree is how the value is written. -/
def IsHeldBy (v : Value) (text : String) : Prop :=
  (Document.ofText text).complete = true ∧ v.isWrittenAs (Document.ofText text).root = true

def IsScalar : Value → Prop
  | .sequence _ | .mapping _ => False
  | _ => True

section Writing

variable {n : Node} {style : Style} {text : String}

lemma isSpelledBy_int {i : Int} : isSpelledBy style text (.int i) = true ↔
    Core.meaning none style text = .int i ∧ text = toString i := by
  unfold isSpelledBy
  cases Core.meaning none style text <;> simp

lemma isSpelledBy_float {x : Binary64} : isSpelledBy style text (.float x) = true ↔
    Core.meaning none style text = .float x := by
  unfold isSpelledBy
  cases Core.meaning none style text <;> simp

lemma isSpelledBy_string {s : String} : isSpelledBy style text (.string s) = true ↔
    Core.meaning none style text = .text ∧ text = s := by
  unfold isSpelledBy
  cases Core.meaning none style text <;> simp

lemma exists_scalar {v : Value} (hv : v.IsScalar) (h : v.isWrittenAs n = true) :
    ∃ style text, n = .scalar none none style text ∧ isSpelledBy style text v = true := by
  rcases n with ⟨_ | _, _ | _, style, text⟩ | ⟨_, _, _⟩ | ⟨_, _, _⟩ | _ | _
  all_goals cases v <;> simp_all [isWrittenAs, IsScalar]

lemma exists_nodes {items : List Value} (h : isWrittenAs (.sequence items) n = true) :
    ∃ nodes, n = .sequence none none nodes ∧ itemsWrittenAs items nodes = true := by
  rcases n with ⟨_ | _, _ | _, style, text⟩ | ⟨_ | _, _ | _, nodes⟩ | ⟨_, _, _⟩ | _ | _
  all_goals simp_all [isWrittenAs, isSpelledBy]

lemma exists_entries {entries : List (Value × Value)} (h : isWrittenAs (.mapping entries) n = true) :
    ∃ nodes, n = .mapping none none nodes ∧ entriesWrittenAs entries nodes = true := by
  rcases n with ⟨_ | _, _ | _, style, text⟩ | ⟨_, _, _⟩ | ⟨_ | _, _ | _, nodes⟩ | _ | _
  all_goals simp_all [isWrittenAs, isSpelledBy]

/-- No alias is in how a value is written. -/
lemma follow_eq_pure {v : Value} (h : v.isWrittenAs n = true) (anchors : Anchors) :
    follow anchors n = pure n := by
  unfold follow
  split
  · cases v <;> simp [isWrittenAs] at h
  · rfl

lemma meaning_ne_null {v : Value} (hv : v ≠ .null) (h : isSpelledBy style text v = true) :
    Core.meaning none style text ≠ .null := by
  intro hnull
  unfold isSpelledBy at h
  rw [hnull] at h
  cases v <;> simp_all

lemma eq_plain_of_meaning (h : Core.meaning none style text ≠ .text) : style = .plain := by
  by_contra hstyle
  exact h (if_neg hstyle)

end Writing

end Value

namespace Decoder

variable {α σ : Type} {v : Value}

/-- A reader makes something of a value, however it is written. -/
def Reads (d : Decoder α) (v : Value) (a : α) : Prop :=
  ∀ anchors place n, v.isWrittenAs n = true → d anchors place n = pure a

lemma Reads.ofText {d : Decoder α} {a : α} (hd : d.Reads v a) {text : String} (h : v.IsHeldBy text) :
    Decoder.ofText d text = .ok a := by
  simp only [Decoder.ofText, hd _ _ _ h.2, h.1, if_true]
  rfl

/-! ### Scalars -/

lemma text_reads (s : String) : text.Reads (.string s) s := by
  intro anchors place n hn
  obtain ⟨style, _, rfl, hs⟩ := Value.exists_scalar (v := .string s) trivial hn
  obtain ⟨-, rfl⟩ := Value.isSpelledBy_string.mp hs
  rfl

lemma scalar_reads_int {read : String → Option α} {i : Int} {a : α} (h : read (toString i) = some a) :
    (scalar "int" read).Reads (.int i) a := by
  intro anchors place n hn
  obtain ⟨style, _, rfl, hs⟩ := Value.exists_scalar (v := .int i) trivial hn
  obtain ⟨hmeaning, rfl⟩ := Value.isSpelledBy_int.mp hs
  obtain rfl := Value.eq_plain_of_meaning (by rw [hmeaning]; nofun)
  rw [scalar, Value.follow_eq_pure hn, pure_bind]
  simp only [Core.mayBe, h]
  rfl

lemma word32_reads (n : UInt32) : word32.Reads (.int n.toNat) n := by
  intro anchors place node hnode
  have hread : (below UInt32.size).Reads (.int n.toNat) n.toNat := by
    refine scalar_reads_int ?_
    have htext : (toString (n.toNat : Int)).toList = Nat.toDigits 10 n.toNat := Nat.toList_repr
    rw [htext, Core.unsigned_toDigits, Option.filter_some, if_pos (by simpa using n.toNat_lt)]
  rw [word32, hread anchors place node hnode, map_pure, UInt32.ofNat_toNat]

lemma int32_reads (n : Int32) : int32.Reads (.int n.toInt) n := by
  intro anchors place node hnode
  have hlow := n.le_toInt
  have hhigh := n.toInt_lt
  have hread : ((Core.integer? (toString n.toInt).toList).filter fun i =>
      -0x80000000 ≤ i && i < 0x80000000) = some n.toInt := by
    rw [Core.integer_toString, Option.filter_some, if_pos]
    simp only [Bool.and_eq_true, decide_eq_true_eq]
    omega
  rw [int32, scalar_reads_int hread anchors place node hnode, map_pure, n.ofInt_toInt]

lemma isAbsent_of_meaning {style : Style} {text : String} (h : Core.meaning none style text ≠ .null)
    (place : Place) : isAbsent place none style text = .ok false := by
  unfold isAbsent
  by_cases hstyle : style = .plain
  · subst hstyle
    have hnull : ¬ (text.isEmpty || Core.isNull text) = true := by
      intro hnull
      refine h ?_
      rw [Core.meaning, if_pos rfl, Core.plainMeaning, if_pos hnull]
    simpa using hnull
  · simp [hstyle]

lemma Reads.optional {d : Decoder α} {a : α} (hd : d.Reads v a) (hscalar : v.IsScalar)
    (hv : v ≠ .null) : (optional d).Reads v (some a) := by
  intro anchors place n hn
  have hread := hd anchors place n hn
  obtain ⟨style, text, rfl, hspelled⟩ := Value.exists_scalar hscalar hn
  have hpresent : isAbsent place none style text = pure false :=
    isAbsent_of_meaning (Value.meaning_ne_null hv hspelled) place
  simp only [Decoder.optional, Value.follow_eq_pure hn, hpresent, hread, liftM_pure, pure_bind]
  rfl

/-! ### Lists and records -/

lemma list_reads {d : Decoder α} {write : α → Value} {l : List α}
    (h : ∀ a ∈ l, d.Reads (write a) a) : (list d).Reads (.sequence (l.map write)) l := by
  intro anchors place n hn
  obtain ⟨nodes, rfl, hnodes⟩ := Value.exists_nodes hn
  have hitems : ∀ (l : List α) (nodes : List Node) (i : Nat), (∀ a ∈ l, d.Reads (write a) a) →
      Value.itemsWrittenAs (l.map write) nodes = true →
      ((nodes.zipIdx i).mapM fun p => d anchors (place.index p.2) p.1) = pure l := by
    intro l
    induction l with
    | nil =>
      intro nodes i _ hnodes
      cases nodes with
      | nil => rfl
      | cons => simp [Value.itemsWrittenAs] at hnodes
    | cons a l ih =>
      intro nodes i h hnodes
      cases nodes with
      | nil => simp [Value.itemsWrittenAs] at hnodes
      | cons node nodes =>
        rw [List.map_cons, Value.itemsWrittenAs, Bool.and_eq_true] at hnodes
        rw [List.forall_mem_cons] at h
        rw [List.zipIdx_cons, List.mapM_cons, h.1 _ _ _ hnodes.1, ih nodes (i + 1) h.2 hnodes.2]
        rfl
  exact hitems l nodes 0 h hnodes

/-- Entries for some of the fields, in their order, take a record from one state to another. -/
inductive Takes : List (Field σ) → σ → List (String × Value) → σ → Prop
  | nil (s : σ) : Takes [] s [] s
  | entry {f : Field σ} {fields : List (Field σ)} {s t u : σ} {v : Value}
    {l : List (String × Value)}
    (hread : ∀ anchors place n, v.isWrittenAs n = true → f.read anchors place n s = pure t)
    (hrest : Takes fields t l u) : Takes (f :: fields) s ((f.name, v) :: l) u
  | skip {f : Field σ} {fields : List (Field σ)} {s u : σ} {l : List (String × Value)}
    (hrest : Takes fields s l u) : Takes (f :: fields) s l u

/-- No field goes by the name of a later one. -/
def AreApart (fields : List (Field σ)) : Prop :=
  fields.Pairwise fun f g => f.isNamed g.name = false

lemma isNamed_self (f : Field σ) : f.isNamed f.name = true := by
  simp [Field.isNamed]

lemma AreApart.find? {fields : List (Field σ)} (h : AreApart fields) {f : Field σ} (hf : f ∈ fields) :
    fields.find? (·.isNamed f.name) = some f := by
  obtain ⟨before, after, rfl⟩ := List.append_of_mem hf
  refine List.find?_eq_some_iff_append.mpr ⟨isNamed_self f, before, after, rfl, fun g hg => ?_⟩
  rw [(List.pairwise_append.mp h).2.2 g hg f List.mem_cons_self]
  rfl

lemma AreApart.nodup {fields : List (Field σ)} (h : AreApart fields) :
    (fields.map Field.name).Nodup := by
  rw [List.Nodup, List.pairwise_map]
  refine h.imp fun {f g} hfg heq => ?_
  rw [← heq, isNamed_self] at hfg
  cases hfg

def keyed (l : List (String × Value)) : List (Value × Value) := l.map fun e => (.string e.1, e.2)

namespace Takes

variable {fields : List (Field σ)} {s t : σ} {l : List (String × Value)}

lemma foldlM {all : List (Field σ)} (h : Takes fields s l t) {seen : List String}
    (hfind : ∀ f ∈ fields, all.find? (·.isNamed f.name) = some f)
    (hnodup : (fields.map Field.name).Nodup) (hseen : ∀ f ∈ fields, f.name ∉ seen)
    {nodes : List (Node × Node)} (hnodes : Value.entriesWrittenAs (keyed l) nodes = true)
    (anchors : Anchors) (place : Place) :
    nodes.foldlM (readEntry all anchors place) (seen, s) =
      pure ((l.map Prod.fst).reverse ++ seen, t) := by
  induction h generalizing seen nodes with
  | nil =>
    cases nodes with
    | nil => rfl
    | cons => simp [keyed, Value.entriesWrittenAs] at hnodes
  | skip _ ih =>
    rw [List.map_cons, List.nodup_cons] at hnodup
    rw [List.forall_mem_cons] at hfind hseen
    exact ih hfind.2 hnodup.2 hseen.2 hnodes
  | @entry f fields s t u v l hread _ ih =>
    cases nodes with
    | nil => simp [keyed, Value.entriesWrittenAs] at hnodes
    | cons e nodes =>
      rw [keyed, List.map_cons, Value.entriesWrittenAs, Bool.and_eq_true, Bool.and_eq_true] at hnodes
      obtain ⟨⟨hkey, hvalue⟩, hnodes⟩ := hnodes
      rw [List.map_cons, List.nodup_cons] at hnodup
      rw [List.forall_mem_cons] at hfind hseen
      have hnext : ∀ g ∈ fields, g.name ∉ f.name :: seen := by
        intro g hg
        rw [List.mem_cons, not_or]
        exact ⟨fun heq => hnodup.1 (heq ▸ List.mem_map_of_mem hg), hseen.2 g hg⟩
      have hentry : readEntry all anchors place (seen, s) e = pure (f.name :: seen, t) := by
        have hfresh : seen.contains f.name = false := by simpa using hseen.1
        simp only [readEntry, text_reads _ anchors place _ hkey, pure_bind, hfind.1, hfresh,
          hread anchors _ _ hvalue, Bool.false_eq_true, if_false]
      rw [List.foldlM_cons, hentry]
      change nodes.foldlM (readEntry all anchors place) (f.name :: seen, t) = _
      rw [ih hfind.2 hnodup.2 hnext hnodes, List.map_cons, List.reverse_cons, List.append_assoc]
      rfl

/-- A record is read from its entries, if those that it requires are among them. -/
lemma record (h : Takes fields s l t) (hfields : AreApart fields) {required : List String}
    (hrequired : ∀ name ∈ required, name ∈ l.map Prod.fst) :
    (record fields required s).Reads (.mapping (keyed l)) t := by
  intro anchors place n hn
  obtain ⟨nodes, rfl, hnodes⟩ := Value.exists_entries hn
  have hseen : required.find? (fun name => !((l.map Prod.fst).reverse ++ []).contains name) = none := by
    rw [List.find?_eq_none]
    intro name hname
    simpa using hrequired name hname
  simp only [Decoder.record, entries, Value.follow_eq_pure hn, pure_bind,
    h.foldlM (fun _ hf => hfields.find? hf) hfields.nodup (fun _ _ => List.not_mem_nil) hnodes anchors
      place, hseen]

end Takes

lemma Reads.field {d : Decoder α} {a : α} (hd : d.Reads v a) {name : String} {put : σ → α → σ} {s : σ}
    (anchors : Anchors) (place : Place) (n : Node) (hn : v.isWrittenAs n = true) :
    (Field.of name d put).read anchors place n s = pure (put s a) := by
  simp only [Field.of, hd anchors place n hn, map_pure]

lemma Reads.fieldAlsoNamed {d : Decoder α} {a : α} (hd : d.Reads v a) {name other : String}
    {put : σ → α → σ} {s : σ} (anchors : Anchors) (place : Place) (n : Node)
    (hn : v.isWrittenAs n = true) :
    ((Field.of name d put).alsoNamed other).read anchors place n s = pure (put s a) := by
  have hread : (Field.of name d put).read anchors place n s = pure (put s a) :=
    hd.field anchors place n hn
  exact hread

end Decoder

end WorkflowOperator.Yaml
