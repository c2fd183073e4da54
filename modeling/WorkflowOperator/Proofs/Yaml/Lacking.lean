import WorkflowOperator.Proofs.Template.Rendering
import WorkflowOperator.Proofs.Text.ShellWord
import WorkflowOperator.Yaml.Decoder

/-!
# What is reported as missing

A reader that reports an entry as missing has come to a mapping without it, in the branch of the tree for
which it requires the entry. No other fault is reported so. The place in the report is made of the names
that readers know and of numbers of items, and so has no backquote of a text in the document.
-/

namespace WorkflowOperator.Yaml

def Anchors.IsText (a : Anchors) (n : Node) (s : String) : Prop :=
  ∃ anchor tag style, a.resolve n = .scalar anchor tag style s

/-- A node has the entries of a mapping, or none and is blank. -/
inductive Anchors.HasEntries (a : Anchors) (n : Node) : List (Node × Node) → Prop
  | mapping {anchor : Option Nat} {tag : Option String} {entries : List (Node × Node)}
    (h : a.resolve n = .mapping anchor tag entries) : HasEntries a n entries
  | blank {anchor : Option Nat} {tag : Option String} (h : a.resolve n = .scalar anchor tag .plain "") :
    HasEntries a n []

/-- A node lacks an entry: it is a mapping, and each key in it is another text than the name of the
entry. -/
def Anchors.Lacks (a : Anchors) (n : Node) (name : String) : Prop :=
  ∃ entries, a.HasEntries n entries ∧ ∀ e ∈ entries, ∃ key, a.IsText e.1 key ∧ key ≠ name

/-- A way down from a node, to the value of an entry or to an item. -/
inductive Branch
  | entry (name : String)
  | item (index : Nat)
deriving DecidableEq, Repr

/-- Down these branches from a node is one that lacks an entry. -/
inductive Anchors.LacksAt (a : Anchors) : Node → List Branch → String → Prop
  | here {n : Node} {name : String} (h : a.Lacks n name) : LacksAt a n [] name
  | entry {n : Node} {entries : List (Node × Node)} {e : Node × Node} {key name : String}
    {path : List Branch} (hentries : a.HasEntries n entries) (hmem : e ∈ entries)
    (hkey : a.IsText e.1 key) (h : LacksAt a e.2 path name) : LacksAt a n (.entry key :: path) name
  | item {n : Node} {anchor : Option Nat} {tag : Option String} {items : List Node} {index : Nat}
    {item : Node} {name : String} {path : List Branch}
    (hitems : a.resolve n = .sequence anchor tag items) (hitem : items[index]? = some item)
    (h : LacksAt a item path name) : LacksAt a n (.item index :: path) name

namespace Decoder

variable {α β σ : Type} {R : List Branch → String → Prop}

/-- A reader reports as missing only what it requires in the branches of a node and what really is
missing there, and it puts no backquote in the place. -/
def Misses (d : Decoder α) (R : List Branch → String → Prop) : Prop :=
  ∀ anchors place n more p name, (d anchors place n).run more = .error (.missing p name) →
    ∃ path, R path name ∧ anchors.LacksAt n path name ∧ ('\x60' ∉ place.toList → '\x60' ∉ p.toList)

/-! ### Readers that report nothing as missing -/

def MissesNothing (x : Value.Bounded α) : Prop := ∀ more p name, x.run more ≠ .error (.missing p name)

def NeverMisses (d : Decoder α) : Prop := ∀ anchors place n, MissesNothing (d anchors place n)

lemma NeverMisses.misses {d : Decoder α} (h : NeverMisses d) : d.Misses R :=
  fun anchors place n more p name herror => absurd herror (h anchors place n more p name)

lemma run_bind_eq_ok_iff {x : Value.Bounded α} {f : α → Value.Bounded β} {more : Nat}
    {out : β × Nat} : (x >>= f).run more = .ok out ↔
      ∃ a left, x.run more = .ok (a, left) ∧ (f a).run left = .ok out := by
  rw [StateT.run_bind, bind_eq_ok_iff, Prod.exists]

lemma run_bind_eq_error_iff {x : Value.Bounded α} {f : α → Value.Bounded β} {more : Nat}
    {fault : Fault} : (x >>= f).run more = .error fault ↔ x.run more = .error fault ∨
      ∃ a left, x.run more = .ok (a, left) ∧ (f a).run left = .error fault := by
  rw [StateT.run_bind, bind_eq_error_iff, Prod.exists]

lemma missesNothing_pure (a : α) : MissesNothing (pure a) := fun _ _ _ => nofun

lemma missesNothing_throw {fault : Fault} (h : ∀ p name, fault ≠ .missing p name) :
    MissesNothing (throw fault : Value.Bounded α) :=
  fun _ p name herror => h p name (Except.error.inj herror)

lemma missesNothing_lift {x : Except Fault α} (h : ∀ p name, x ≠ .error (.missing p name)) :
    MissesNothing (liftM x : Value.Bounded α) := by
  intro more p name herror
  rcases bind_eq_error_iff.mp herror with hx | ⟨a, -, ⟨⟩⟩
  exact h p name hx

lemma MissesNothing.bind {x : Value.Bounded α} {f : α → Value.Bounded β} (hx : MissesNothing x)
    (hf : ∀ a, MissesNothing (f a)) : MissesNothing (x >>= f) := by
  intro more p name herror
  rcases run_bind_eq_error_iff.mp herror with hx' | ⟨a, left, -, hfa⟩
  · exact hx more p name hx'
  · exact hf a left p name hfa

lemma MissesNothing.map {x : Value.Bounded α} (hx : MissesNothing x) (f : α → β) :
    MissesNothing (f <$> x) := by
  rw [map_eq_pure_bind]
  exact hx.bind fun a => missesNothing_pure (f a)

lemma missesNothing_mapM {f : α → Value.Bounded β} (hf : ∀ a, MissesNothing (f a)) (l : List α) :
    MissesNothing (l.mapM f) := by
  induction l with
  | nil => exact missesNothing_pure []
  | cons a l ih =>
    rw [List.mapM_cons]
    exact (hf a).bind fun b => ih.bind fun bs => missesNothing_pure (b :: bs)

lemma missesNothing_foldlM {f : β → α → Value.Bounded β} (hf : ∀ b a, MissesNothing (f b a)) (b : β)
    (l : List α) : MissesNothing (l.foldlM f b) := by
  induction l generalizing b with
  | nil => exact missesNothing_pure b
  | cons a l ih =>
    rw [List.foldlM_cons]
    exact (hf b a).bind fun b' => ih b'

lemma mismatch_ne_missing (place : Place) (n : Node) (p : Place) (name : String) :
    mismatch place n ≠ .missing p name := by
  unfold mismatch
  split
  · split <;> nofun
  · nofun
  · nofun

lemma missesNothing_mismatch (place : Place) (n : Node) :
    MissesNothing (throw (mismatch place n) : Value.Bounded α) :=
  missesNothing_throw (mismatch_ne_missing place n)

lemma missesNothing_follow (anchors : Anchors) (n : Node) :
    MissesNothing (Value.follow anchors n) := by
  unfold Value.follow
  split
  · intro more
    cases more with
    | zero => exact fun _ _ => nofun
    | succ more => exact fun _ _ => nofun
  · exact missesNothing_pure n

lemma text_neverMisses : NeverMisses text := by
  intro anchors place n
  refine (missesNothing_follow anchors n).bind fun n' => ?_
  split
  · exact missesNothing_pure _
  · exact missesNothing_mismatch _ _

lemma scalar_neverMisses (type : String) (read : String → Option α) :
    NeverMisses (scalar type read) := by
  intro anchors place n
  refine (missesNothing_follow anchors n).bind fun n' => ?_
  split
  · split_ifs
    · split
      · exact missesNothing_pure _
      · exact missesNothing_mismatch _ _
    · exact missesNothing_mismatch _ _
  · exact missesNothing_mismatch _ _

lemma flag_neverMisses : NeverMisses flag := scalar_neverMisses "bool" Core.bool?

lemma word32_neverMisses : NeverMisses word32 :=
  fun anchors place n => (scalar_neverMisses _ _ anchors place n).map UInt32.ofNat

lemma word16_neverMisses : NeverMisses word16 :=
  fun anchors place n => (scalar_neverMisses _ _ anchors place n).map UInt16.ofNat

lemma int32_neverMisses : NeverMisses int32 :=
  fun anchors place n => (scalar_neverMisses _ _ anchors place n).map Int32.ofInt

lemma isAbsent_ne_missing (place : Place) (tag : Option String) (style : Style) (s : String)
    (p : Place) (name : String) : isAbsent place tag style s ≠ .error (.missing p name) := by
  unfold isAbsent
  split_ifs
  · nofun
  all_goals
    cases tag with
    | none => nofun
    | some t =>
      dsimp only
      split_ifs <;> nofun

lemma NeverMisses.optional {d : Decoder α} (h : NeverMisses d) : NeverMisses (optional d) := by
  intro anchors place n
  refine (missesNothing_follow anchors n).bind fun n' => ?_
  split
  · refine (missesNothing_lift (isAbsent_ne_missing _ _ _ _)).bind fun absent => ?_
    cases absent with
    | true => exact missesNothing_pure _
    | false => exact (h _ _ _).bind fun a => missesNothing_pure _
  · exact missesNothing_throw nofun
  · exact (h _ _ _).bind fun a => missesNothing_pure _

lemma entries_neverMisses : NeverMisses entries := by
  intro anchors place n
  refine (missesNothing_follow anchors n).bind fun n' => ?_
  split
  · exact missesNothing_pure _
  · split_ifs
    · exact missesNothing_pure _
    · exact missesNothing_mismatch _ _
  · exact missesNothing_mismatch _ _

lemma NeverMisses.textMap {d : Decoder α} (h : NeverMisses d) : NeverMisses (textMap d) := by
  intro anchors place n
  refine (entries_neverMisses anchors place n).bind fun es => missesNothing_foldlM (fun m e => ?_) _ _
  refine (text_neverMisses _ _ _).bind fun k => (h _ _ _).bind fun v => missesNothing_pure _

/-! ### Values of no known type -/

lemma ofScalar_ne_missing (place : Place) (tag : Option String) (style : Style) (s : String)
    (p : Place) (name : String) : Value.ofScalar place tag style s ≠ .error (.missing p name) := by
  unfold Value.ofScalar
  split <;> nofun

lemma missesNothing_ofNode (anchors : Anchors) (depth : Nat) (place : Place) (n : Node) :
    MissesNothing (Value.ofNode anchors depth place n) := by
  have hscalar : ∀ (place : Place) tag style s, MissesNothing
      (Value.underTag tag <$> (liftM (Value.ofScalar place (Value.sharedTag tag) style s) :
        Value.Bounded Value)) :=
    fun place tag style s => (missesNothing_lift (ofScalar_ne_missing _ _ _ _)).map _
  induction depth generalizing place n with
  | zero =>
    rw [Value.ofNode]
    refine (missesNothing_follow anchors n).bind fun n' => ?_
    rcases n' with ⟨_, tag, style, s⟩ | ⟨_, _, _⟩ | ⟨_, _, _⟩ | _ | _
    · exact hscalar place tag style s
    all_goals exact missesNothing_throw nofun
  | succ depth ih =>
    rw [Value.ofNode]
    refine (missesNothing_follow anchors n).bind fun n' => ?_
    rcases n' with ⟨_, tag, style, s⟩ | ⟨_, tag, items⟩ | ⟨_, tag, entries⟩ | _ | _
    · exact hscalar place tag style s
    · exact (missesNothing_mapM (fun item => ih place item) items).bind
        fun values => missesNothing_pure _
    · refine (missesNothing_foldlM (fun seen e => ?_) [] entries).bind
        fun values => missesNothing_pure _
      refine (ih place e.1).bind fun k => ?_
      have hvalue : MissesNothing (do
          let v ← Value.ofNode anchors depth (Value.entryPlace place e.1) e.2
          return seen ++ [(k, v)]) := (ih _ e.2).bind fun v => missesNothing_pure _
      dsimp only
      split_ifs
      · exact MissesNothing.bind (missesNothing_throw nofun) fun _ => hvalue
      · exact hvalue
    all_goals exact missesNothing_throw nofun

/-! ### Lists and records -/

/-- What is required in an item, as it is required in the list. -/
def InItem (R : List Branch → String → Prop) (path : List Branch) (name : String) : Prop :=
  ∃ index rest, path = .item index :: rest ∧ R rest name

lemma backquote_notMem_key {place : Place} {key : String} (hplace : '\x60' ∉ place.toList)
    (hkey : '\x60' ∉ key.toList) : '\x60' ∉ (place.key key).toList := by
  unfold Place.key
  split_ifs
  · exact hkey
  · simp [hplace, hkey]

lemma backquote_notMem_index {place : Place} (hplace : '\x60' ∉ place.toList) (index : Nat) :
    '\x60' ∉ (place.index index).toList := by
  have hindex : '\x60' ∉ (toString index).toList :=
    fun h => absurd (Text.isWordChar_of_mem_toString h) (by decide)
  unfold Place.index
  simp only [String.toList_append, List.mem_append, not_or]
  refine ⟨⟨⟨?_, by decide⟩, hindex⟩, by decide⟩
  split_ifs
  · decide
  · exact hplace

lemma exists_of_mapM_eq_error {f : α → Value.Bounded β} {l : List α} {more : Nat} {fault : Fault}
    (h : (l.mapM f).run more = .error fault) : ∃ a ∈ l, ∃ left, (f a).run left = .error fault := by
  induction l generalizing more with
  | nil => cases h
  | cons a l ih =>
    rw [List.mapM_cons] at h
    rcases run_bind_eq_error_iff.mp h with ha | ⟨b, left, -, hrest⟩
    · exact ⟨a, List.mem_cons_self, more, ha⟩
    · rcases run_bind_eq_error_iff.mp hrest with hl | ⟨bs, left, -, ⟨⟩⟩
      obtain ⟨a', ha', hfault⟩ := ih hl
      exact ⟨a', List.mem_cons_of_mem a ha', hfault⟩

section Following

variable {anchors : Anchors} {place : Place} {n : Node} {more left : Nat}

lemma resolve_of_follow {n' : Node} (h : (Value.follow anchors n).run more = .ok (n', left)) :
    anchors.resolve n = n' := by
  unfold Value.follow at h
  split at h
  · cases more with
    | zero => cases h
    | succ more =>
      cases h
      rfl
  · rename_i halias
    cases h
    unfold Anchors.resolve
    split
    · exact absurd rfl (halias _)
    · rfl

lemma hasEntries_of_entries {es : List (Node × Node)}
    (h : (entries anchors place n).run more = .ok (es, left)) : anchors.HasEntries n es := by
  obtain ⟨n', _, hfollow, hrest⟩ := run_bind_eq_ok_iff.mp h
  have hn := resolve_of_follow hfollow
  split at hrest
  · cases hrest
    exact .mapping hn
  · split_ifs at hrest with hempty
    · cases hrest
      simp only [isEmptyPlain, Bool.and_eq_true, beq_iff_eq, String.isEmpty_iff] at hempty
      obtain ⟨rfl, rfl⟩ := hempty
      exact .blank hn
    · cases hrest
  · cases hrest

lemma isText_of_text {s : String} (h : (text anchors place n).run more = .ok (s, left)) :
    anchors.IsText n s := by
  obtain ⟨n', _, hfollow, hrest⟩ := run_bind_eq_ok_iff.mp h
  have hn := resolve_of_follow hfollow
  split at hrest
  · cases hrest
    exact ⟨_, _, _, hn⟩
  · cases hrest

end Following

lemma Misses.list {d : Decoder α} (h : d.Misses R) : (list d).Misses (InItem R) := by
  intro anchors place n more p name herror
  rcases run_bind_eq_error_iff.mp herror with hfollow | ⟨n', left, hfollow, hrest⟩
  · exact absurd hfollow (missesNothing_follow anchors n more p name)
  have hn := resolve_of_follow hfollow
  split at hrest
  · obtain ⟨⟨item, index⟩, hmem, _, hitem⟩ := exists_of_mapM_eq_error hrest
    obtain ⟨path, hrequired, hlacks, hplace⟩ := h _ _ _ _ _ _ hitem
    exact ⟨.item index :: path, ⟨index, path, rfl, hrequired⟩,
      .item hn (List.mk_mem_zipIdx_iff_getElem?.mp hmem) hlacks,
      fun hfree => hplace (backquote_notMem_index hfree index)⟩
  · split_ifs at hrest
    · cases hrest
    · exact absurd hrest (missesNothing_mismatch _ _ _ p name)
  · exact absurd hrest (missesNothing_mismatch _ _ _ p name)

/-- A field reports as missing only what it requires. -/
def Field.Misses (f : Field σ) (R : List Branch → String → Prop) : Prop :=
  ∀ anchors place n s more p name, (f.read anchors place n s).run more = .error (.missing p name) →
    ∃ path, R path name ∧ anchors.LacksAt n path name ∧ ('\x60' ∉ place.toList → '\x60' ∉ p.toList)

lemma Misses.field {d : Decoder α} (h : d.Misses R) (name : String) (put : σ → α → σ) :
    (Field.of name d put).Misses R := by
  intro anchors place n s more p key herror
  change (put s <$> d anchors place n).run more = _ at herror
  rw [map_eq_pure_bind] at herror
  rcases run_bind_eq_error_iff.mp herror with hd | ⟨a, left, -, ⟨⟩⟩
  exact h anchors place n more p key hd

lemma Misses.entry {d : Decoder α} (h : d.Misses R) (R' : List Branch → String → Prop) {name : String}
    (put : σ → α → σ) (hR : ∀ path key, R path key → R' (.entry name :: path) key) :
    (Field.of name d put).Misses fun path key =>
      ∀ entry, (Field.of name d put).isNamed entry = true → R' (.entry entry :: path) key := by
  intro anchors place n s more p key herror
  obtain ⟨path, hpath, hlacks, hplace⟩ := h.field name put anchors place n s more p key herror
  refine ⟨path, fun entry hentry => ?_, hlacks, hplace⟩
  have hname : name = entry := by simpa [Field.isNamed, Field.of] using hentry
  rw [← hname]
  exact hR path key hpath

lemma NeverMisses.field {d : Decoder α} (h : NeverMisses d) (name : String) (put : σ → α → σ) :
    (Field.of name d put).Misses R :=
  h.misses.field name put

lemma Field.Misses.alsoNamed {f : Field σ} (h : f.Misses R) (name : String) :
    (f.alsoNamed name).Misses R :=
  h

section Records

variable {fields : List (Field σ)} {anchors : Anchors} {place : Place} {more left : Nat}

lemma readEntry_eq_ok {e : Node × Node} {sofar out : List String × σ}
    (h : (readEntry fields anchors place sofar e).run more = .ok (out, left)) :
    ∃ key, anchors.IsText e.1 key ∧
      (fields.find? (·.isNamed key) = none ∧ out = sofar ∨
        ∃ f s, fields.find? (·.isNamed key) = some f ∧ out = (f.name :: sofar.1, s)) := by
  obtain ⟨key, _, hkey, hrest⟩ := run_bind_eq_ok_iff.mp h
  refine ⟨key, isText_of_text hkey, ?_⟩
  cases hfind : fields.find? (·.isNamed key) with
  | none =>
    simp only [hfind] at hrest
    split_ifs at hrest
    · cases hrest
      exact Or.inl ⟨rfl, rfl⟩
    · cases hrest
  | some f =>
    simp only [hfind] at hrest
    split_ifs at hrest
    · cases hrest
    · obtain ⟨s, _, -, hout⟩ := run_bind_eq_ok_iff.mp hrest
      cases hout
      exact Or.inr ⟨f, s, rfl, rfl⟩

lemma readEntry_eq_missing {e : Node × Node} {sofar : List String × σ} {p : Place} {name : String}
    (h : (readEntry fields anchors place sofar e).run more = .error (.missing p name)) :
    ∃ key f left, anchors.IsText e.1 key ∧ fields.find? (·.isNamed key) = some f ∧
      (f.read anchors (Value.entryPlace place e.1) e.2 sofar.2).run left =
        .error (.missing p name) := by
  rcases run_bind_eq_error_iff.mp h with hkey | ⟨key, left, hkey, hrest⟩
  · exact absurd hkey (text_neverMisses anchors place e.1 more p name)
  cases hfind : fields.find? (·.isNamed key) with
  | none =>
    simp only [hfind] at hrest
    split_ifs at hrest <;> cases hrest
  | some f =>
    simp only [hfind] at hrest
    refine ⟨key, f, left, isText_of_text hkey, hfind, ?_⟩
    split_ifs at hrest
    · cases hrest
    · rcases run_bind_eq_error_iff.mp hrest with hread | ⟨s, _, -, ⟨⟩⟩
      exact hread

/-- Of the entries that have been read, each has a text for a key, and the fields that go by these are
among those that have been read. -/
lemma mem_seen_of_foldlM {es : List (Node × Node)} {sofar out : List String × σ}
    (h : (es.foldlM (readEntry fields anchors place) sofar).run more = .ok (out, left)) :
    (∀ name ∈ sofar.1, name ∈ out.1) ∧
      ∀ e ∈ es, ∃ key, anchors.IsText e.1 key ∧
        ∀ f, fields.find? (·.isNamed key) = some f → f.name ∈ out.1 := by
  induction es generalizing sofar more with
  | nil =>
    cases h
    exact ⟨fun _ hname => hname, by simp⟩
  | cons e es ih =>
    rw [List.foldlM_cons, run_bind_eq_ok_iff] at h
    obtain ⟨next, _, hentry, hrest⟩ := h
    obtain ⟨hkept, hread⟩ := ih hrest
    obtain ⟨key, hkey, hnext⟩ := readEntry_eq_ok hentry
    constructor
    · intro name hname
      refine hkept name ?_
      rcases hnext with ⟨-, rfl⟩ | ⟨f, s, -, rfl⟩
      · exact hname
      · exact List.mem_cons_of_mem _ hname
    · rw [List.forall_mem_cons]
      refine ⟨⟨key, hkey, fun f hfind => ?_⟩, hread⟩
      rcases hnext with ⟨hnone, -⟩ | ⟨f', s, hfind', rfl⟩
      · rw [hfind] at hnone
        cases hnone
      · obtain rfl := Option.some.inj (hfind.symm.trans hfind')
        exact hkept _ List.mem_cons_self

lemma exists_of_foldlM_eq_error {f : β → α → Value.Bounded β} {l : List α} {b : β} {fault : Fault}
    (h : (l.foldlM f b).run more = .error fault) :
    ∃ a ∈ l, ∃ b' left, (f b' a).run left = .error fault := by
  induction l generalizing b more with
  | nil => cases h
  | cons a l ih =>
    rw [List.foldlM_cons] at h
    rcases run_bind_eq_error_iff.mp h with ha | ⟨b', left, -, hrest⟩
    · exact ⟨a, List.mem_cons_self, b, more, ha⟩
    · obtain ⟨a', ha', hfault⟩ := ih hrest
      exact ⟨a', List.mem_cons_of_mem a ha', hfault⟩

lemma backquote_notMem_entryPlace {e : Node × Node} {key : String}
    (hkey : anchors.IsText e.1 key) (hname : '\x60' ∉ key.toList)
    (hfree : '\x60' ∉ place.toList) : '\x60' ∉ (Value.entryPlace place e.1).toList := by
  unfold Value.entryPlace
  split
  · rename_i heq
    obtain ⟨_, _, _, htext⟩ := hkey
    rw [heq] at htext
    cases htext
    exact backquote_notMem_key hfree hname
  · exact backquote_notMem_key hfree (by decide)

/-- What is missing in the value of a field is missing below the entry for it. -/
lemma lacksAt_of_readEntry {n : Node} {es : List (Node × Node)} {e : Node × Node}
    {sofar : List String × σ} {p : Place} {name : String}
    (hfields : ∀ f ∈ fields, f.Misses fun path name =>
      ∀ key, f.isNamed key = true → R (.entry key :: path) name)
    (hnames : ∀ f ∈ fields, ∀ key ∈ f.name :: f.otherNames, '\x60' ∉ key.toList)
    (hn : anchors.HasEntries n es) (he : e ∈ es)
    (h : (readEntry fields anchors place sofar e).run more = .error (.missing p name)) :
    ∃ path, R path name ∧ anchors.LacksAt n path name ∧
      ('\x60' ∉ place.toList → '\x60' ∉ p.toList) := by
  obtain ⟨key, f, _, hkey, hfind, hread⟩ := readEntry_eq_missing h
  have hf := List.mem_of_find?_eq_some hfind
  have hnamed := List.find?_some hfind
  obtain ⟨path, hpath, hlacks, hplace⟩ := hfields f hf _ _ _ _ _ _ _ hread
  refine ⟨.entry key :: path, hpath key hnamed, .entry hn he hkey hlacks, ?_⟩
  have hname : '\x60' ∉ key.toList := by
    refine hnames f hf key ?_
    simp only [Field.isNamed, Bool.or_eq_true, beq_iff_eq, List.contains_iff_mem] at hnamed
    exact List.mem_cons.mpr (hnamed.imp_left Eq.symm)
  exact fun hfree => hplace (backquote_notMem_entryPlace hkey hname hfree)

lemma lacks_of_unseen {n : Node} {es : List (Node × Node)} {start : σ} {out : List String × σ}
    {name : String} (hknown : (fields.find? (·.isNamed name)).map Field.name = some name)
    (hn : anchors.HasEntries n es)
    (hfold : (es.foldlM (readEntry fields anchors place) ([], start)).run more = .ok (out, left))
    (hunseen : name ∉ out.1) : anchors.Lacks n name := by
  obtain ⟨f, hf, hname⟩ := Option.map_eq_some_iff.mp hknown
  refine ⟨es, hn, fun e he => ?_⟩
  obtain ⟨key, hkey, hseen⟩ := (mem_seen_of_foldlM hfold).2 e he
  refine ⟨key, hkey, ?_⟩
  rintro rfl
  exact hunseen (hname ▸ hseen f hf)

/-- A record reports as missing what it requires itself, and what is required in the values of its
fields. -/
lemma record_misses {required : List String} {start : σ}
    (hrequired : ∀ name ∈ required, R [] name)
    (hknown : ∀ name ∈ required, (fields.find? (·.isNamed name)).map Field.name = some name)
    (hfields : ∀ f ∈ fields, f.Misses fun path name =>
      ∀ key, f.isNamed key = true → R (.entry key :: path) name)
    (hnames : ∀ f ∈ fields, ∀ key ∈ f.name :: f.otherNames, '\x60' ∉ key.toList) :
    (record fields required start).Misses R := by
  intro anchors place n more p name herror
  rcases run_bind_eq_error_iff.mp herror with hentries | ⟨es, _, hes, hrest⟩
  · exact absurd hentries (entries_neverMisses anchors place n more p name)
  have hn := hasEntries_of_entries hes
  rcases run_bind_eq_error_iff.mp hrest with hfold | ⟨⟨seen, s⟩, _, hfold, hmissing⟩
  · obtain ⟨e, he, sofar, _, hentry⟩ := exists_of_foldlM_eq_error hfold
    exact lacksAt_of_readEntry hfields hnames hn he hentry
  · dsimp only at hmissing
    split at hmissing
    · rename_i name' hfind
      cases hmissing
      have hname := List.mem_of_find?_eq_some hfind
      have hunseen : name ∉ seen := by simpa using List.find?_some hfind
      exact ⟨[], hrequired name hname, .here (lacks_of_unseen (hknown name hname) hn hfold hunseen),
        fun hfree => hfree⟩
    · cases hmissing

lemma record_neverMisses {start : σ} (hfields : ∀ f ∈ fields, ∀ R, f.Misses R)
    (hnames : ∀ f ∈ fields, ∀ key ∈ f.name :: f.otherNames, '\x60' ∉ key.toList) :
    NeverMisses (record fields [] start) := by
  intro anchors place n more p name herror
  have hmisses : (record fields [] start).Misses fun _ _ => False :=
    record_misses (by simp) (by simp) (fun f hf => hfields f hf _) hnames
  obtain ⟨path, hfalse, -⟩ := hmisses anchors place n more p name herror
  exact hfalse

end Records

end Decoder

end WorkflowOperator.Yaml
