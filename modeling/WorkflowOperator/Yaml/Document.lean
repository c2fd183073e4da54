import WorkflowOperator.Yaml.Node
import WorkflowOperator.Yaml.Token.Stream

/-!
# Documents

The tree of nodes that the tokens of a text spell.  A collection is read item by item; whatever
breaks the rules leaves the node `broken` where it stands.  Every step has to use up tokens, which
the readers check before they go on, so that they stop on any list of tokens.
-/

namespace WorkflowOperator.Yaml

/-- The tokens still to be read, and the names given so far. -/
structure Remaining where
  tokens : List Token
  /-- The names of anchors with their numbers, latest first. -/
  anchors : List (List Char × Nat)
  /-- What the handles of tags stand for. -/
  handles : List (List Char × List Char)

namespace Remaining

def goOn (s : Remaining) (tokens : List Token) : Remaining := { s with tokens }

@[simp] theorem tokens_goOn (s : Remaining) (ts : List Token) : (s.goOn ts).tokens = ts := rfl

/-- Gives an anchor its number, which is the number of other names. -/
def nameAnchor (s : Remaining) (name : List Char) : Nat × Remaining :=
  let others := s.anchors.filter fun e => !(e.1 == name)
  (s.anchors.length, { s with anchors := (name, s.anchors.length) :: others })

/-- A tag written out, unless its handle stands for nothing. -/
def writeOut? (s : Remaining) (handle suffix : List Char) : Option String :=
  if handle.isEmpty then some (String.ofList suffix)
  else (s.handles.find? fun e => e.1 == handle).map fun e => String.ofList (e.2 ++ suffix)

end Remaining

/-- The anchor and the tag before a node. -/
structure Properties where
  anchor : Option (List Char)
  tag : Option (List Char × List Char)

/-- Reads the properties at the front, in either order. -/
def readProperties : List Token → Properties × List Token
  | .anchor name :: .tag handle suffix :: rest => (⟨some name, some (handle, suffix)⟩, rest)
  | .tag handle suffix :: .anchor name :: rest => (⟨some name, some (handle, suffix)⟩, rest)
  | .anchor name :: rest => (⟨some name, none⟩, rest)
  | .tag handle suffix :: rest => (⟨none, some (handle, suffix)⟩, rest)
  | rest => (⟨none, none⟩, rest)

theorem length_readProperties_le (ts : List Token) : (readProperties ts).2.length ≤ ts.length := by
  unfold readProperties
  split <;> simp only [List.length_cons] <;> omega

/-- A node that has properties and nothing else, or that is missing. -/
def Properties.alone (anchor : Option Nat) (tag : Option String) : Node :=
  if anchor.isSome || tag.isSome then .scalar anchor tag .plain "" else .broken

/-- What may follow the dash or the mark of a key in a block without a node between. -/
def endsBlockNode : Token → Bool
  | .key | .value | .blockEnd => true
  | _ => false

/-- What may follow a dash without a node between. -/
def endsItem : Token → Bool
  | .blockEntry | .blockEnd => true
  | _ => false

/-- What may follow a dash at the column of a key without a node between. -/
def endsIndentlessItem : Token → Bool
  | .blockEntry | .key | .value | .blockEnd => true
  | _ => false

/-- What may follow the mark of a key in a flow mapping without a node between. -/
def endsFlowKey : Token → Bool
  | .value | .flowEntry | .flowMappingEnd => true
  | _ => false

/-- What may follow the colon in a flow mapping without a node between. -/
def endsFlowValue : Token → Bool
  | .flowEntry | .flowMappingEnd => true
  | _ => false

/-- What may follow the mark of a key in a flow sequence without a node between. -/
def endsPairKey : Token → Bool
  | .value | .flowEntry | .flowSequenceEnd => true
  | _ => false

/-- What may follow the colon in a flow sequence without a node between. -/
def endsPairValue : Token → Bool
  | .flowEntry | .flowSequenceEnd => true
  | _ => false

mutual

/-- Reads a node.  Outside of flow collections it may be a block collection, and where `indentless`
is set a sequence may stand at the column of its key. -/
def readNode (block indentless : Bool) (s : Remaining) : Node × Remaining :=
  match s.tokens with
  | .alias name :: rest =>
    match s.anchors.find? fun e => e.1 == name with
    | some e => (.alias e.2, s.goOn rest)
    | none => (.broken, s.goOn [])
  | _ =>
    let tag := match (readProperties s.tokens).1.tag with
      | none => some none
      | some t => (s.writeOut? t.1 t.2).map some
    let named := (readProperties s.tokens).1.anchor.map s.nameAnchor
    let anchor := named.map Prod.fst
    let s' := (named.map Prod.snd).getD s
    match tag, _h : (readProperties s.tokens).2 with
    | none, _ => (.broken, s.goOn [])
    | some _, [] => (.broken, s.goOn [])
    | some tag, t :: rest =>
      match t with
      | .scalar style text =>
        (.scalar anchor (if tag = some "!" then none else tag) style (String.ofList text),
          s'.goOn rest)
      | .flowSequenceStart =>
        let (items, s) := readFlowItems true (s'.goOn rest)
        (.sequence anchor tag items, s)
      | .flowMappingStart =>
        let (entries, s) := readFlowEntries true (s'.goOn rest)
        (.mapping anchor tag entries, s)
      | .blockSequenceStart =>
        if block then
          let (items, s) := readItems (s'.goOn rest)
          (.sequence anchor tag items, s)
        else (Properties.alone anchor tag, s'.goOn (t :: rest))
      | .blockMappingStart =>
        if block then
          let (entries, s) := readEntries (s'.goOn rest)
          (.mapping anchor tag entries, s)
        else (Properties.alone anchor tag, s'.goOn (t :: rest))
      | .blockEntry =>
        if indentless then
          let (items, s) := readIndentlessItems (s'.goOn (t :: rest))
          (.sequence anchor tag items, s)
        else (Properties.alone anchor tag, s'.goOn (t :: rest))
      | _ => (Properties.alone anchor tag, s'.goOn (t :: rest))
termination_by (s.tokens.length, 1)
decreasing_by
  all_goals
    have := length_readProperties_le s.tokens
    simp_all [Prod.lex_def]
    try omega

/-- Reads a node that may be left out before certain tokens. -/
def readOptional (ends : Token → Bool) (block : Bool) (indentless : Bool) (s : Remaining) :
    Node × Remaining :=
  match s.tokens with
  | [] => (.broken, s)
  | t :: _ => if ends t then (.blank, s) else readNode block indentless s
termination_by (s.tokens.length, 2)
decreasing_by all_goals simp_all [Prod.lex_def]

/-- Reads the items of a block sequence after its start. -/
def readItems (s : Remaining) : List Node × Remaining :=
  match _h : s.tokens with
  | .blockEntry :: rest =>
    let (n, s₁) := readOptional endsItem true false (s.goOn rest)
    if _h₁ : s₁.tokens.length < s.tokens.length then
      let (more, s₂) := readItems s₁
      (n :: more, s₂)
    else ([n], s.goOn [])
  | .blockEnd :: rest => ([], s.goOn rest)
  | _ => ([.broken], s.goOn [])
termination_by (s.tokens.length, 0)
decreasing_by all_goals simp_all [Prod.lex_def]

/-- Reads the items of a block sequence at the column of its key. -/
def readIndentlessItems (s : Remaining) : List Node × Remaining :=
  match _h : s.tokens with
  | .blockEntry :: rest =>
    let (n, s₁) := readOptional endsIndentlessItem true false (s.goOn rest)
    if _h₁ : s₁.tokens.length < s.tokens.length then
      let (more, s₂) := readIndentlessItems s₁
      (n :: more, s₂)
    else ([n], s.goOn [])
  | [] => ([.broken], s)
  | _ => ([], s)
termination_by (s.tokens.length, 0)
decreasing_by all_goals simp_all [Prod.lex_def]

/-- Reads the entries of a block mapping after its start. -/
def readEntries (s : Remaining) : List (Node × Node) × Remaining :=
  match _h : s.tokens with
  | .key :: rest =>
    let (k, s₁) := readOptional endsBlockNode true true (s.goOn rest)
    if _h₁ : s₁.tokens.length < s.tokens.length then
      let (v, s₂) := readValue endsBlockNode true s₁
      if _h₂ : s₂.tokens.length < s.tokens.length then
        let (more, s₃) := readEntries s₂
        ((k, v) :: more, s₃)
      else ([(k, v)], s.goOn [])
    else ([(k, .broken)], s.goOn [])
  | .blockEnd :: rest => ([], s.goOn rest)
  | _ => ([(.broken, .broken)], s.goOn [])
termination_by (s.tokens.length, 0)
decreasing_by all_goals simp_all [Prod.lex_def]

/-- Reads a colon and a value, either of which may be left out. -/
def readValue (ends : Token → Bool) (block : Bool) (s : Remaining) : Node × Remaining :=
  match _h : s.tokens with
  | .value :: rest => readOptional ends block block (s.goOn rest)
  | [] => (.broken, s)
  | _ => (.blank, s)
termination_by (s.tokens.length, 0)
decreasing_by all_goals simp_all [Prod.lex_def]

/-- Reads the items of a flow sequence; a comma stands before each but the first. -/
def readFlowItems (first : Bool) (s : Remaining) : List Node × Remaining :=
  match _h : s.tokens with
  | .flowSequenceEnd :: rest => ([], s.goOn rest)
  | t :: rest =>
    if first then readFlowItem s
    else if t = .flowEntry then
      match rest with
      | .flowSequenceEnd :: rest => ([], s.goOn rest)
      | rest => readFlowItem (s.goOn rest)
    else ([.broken], s.goOn [])
  | [] => ([.broken], s)
termination_by (s.tokens.length, 4)
decreasing_by all_goals simp_all [Prod.lex_def]

def readFlowItem (s : Remaining) : List Node × Remaining :=
  match _h : s.tokens with
  | .key :: rest =>
    let (k, s₁) := readPairKey (s.goOn rest)
    if _h₁ : s₁.tokens.length < s.tokens.length then
      let (v, s₂) := readValue endsPairValue false s₁
      if _h₂ : s₂.tokens.length < s.tokens.length then
        let (more, s₃) := readFlowItems false s₂
        (.mapping none none [(k, v)] :: more, s₃)
      else ([.mapping none none [(k, v)]], s.goOn [])
    else ([.mapping none none [(k, .broken)]], s.goOn [])
  | _ =>
    let (n, s₁) := readNode false false s
    if _h₁ : s₁.tokens.length < s.tokens.length then
      let (more, s₂) := readFlowItems false s₁
      (n :: more, s₂)
    else ([n], s.goOn [])
termination_by (s.tokens.length, 3)
decreasing_by all_goals simp_all [Prod.lex_def]

/-- Reads the key of a pair in a flow sequence; where it is left out the token after it is passed
over. -/
def readPairKey (s : Remaining) : Node × Remaining :=
  match _h : s.tokens with
  | [] => (.broken, s)
  | t :: rest => if endsPairKey t then (.blank, s.goOn rest) else readNode false false s
termination_by (s.tokens.length, 2)
decreasing_by all_goals simp_all [Prod.lex_def]

/-- Reads the entries of a flow mapping; a comma stands before each but the first. -/
def readFlowEntries (first : Bool) (s : Remaining) : List (Node × Node) × Remaining :=
  match _h : s.tokens with
  | .flowMappingEnd :: rest => ([], s.goOn rest)
  | t :: rest =>
    if first then readFlowEntry s
    else if t = .flowEntry then
      match rest with
      | .flowMappingEnd :: rest => ([], s.goOn rest)
      | rest => readFlowEntry (s.goOn rest)
    else ([(.broken, .broken)], s.goOn [])
  | [] => ([(.broken, .broken)], s)
termination_by (s.tokens.length, 4)
decreasing_by all_goals simp_all [Prod.lex_def]

def readFlowEntry (s : Remaining) : List (Node × Node) × Remaining :=
  match _h : s.tokens with
  | .key :: rest =>
    let (k, s₁) := readOptional endsFlowKey false false (s.goOn rest)
    if _h₁ : s₁.tokens.length < s.tokens.length then
      let (v, s₂) := readValue endsFlowValue false s₁
      if _h₂ : s₂.tokens.length < s.tokens.length then
        let (more, s₃) := readFlowEntries false s₂
        ((k, v) :: more, s₃)
      else ([(k, v)], s.goOn [])
    else ([(k, .broken)], s.goOn [])
  | _ =>
    let (k, s₁) := readNode false false s
    if _h₁ : s₁.tokens.length < s.tokens.length then
      let v := if s₁.tokens.isEmpty then Node.broken else .blank
      let (more, s₂) := readFlowEntries false s₁
      ((k, v) :: more, s₂)
    else ([(k, .broken)], s.goOn [])
termination_by (s.tokens.length, 3)
decreasing_by all_goals simp_all [Prod.lex_def]

end

structure Document where
  root : Node
  /-- Whether the text was YAML to its end and held no second document. -/
  complete : Bool

namespace Document

def defaultHandles : List (List Char × List Char) :=
  [(['!'], ['!']), (['!', '!'], "tag:yaml.org,2002:".toList)]

/-- Reads the directives before a document: at most one of the version, which must be 1.1 or 1.2,
and handles that are all different. -/
def readDirectives? : List Token → Bool → List (List Char × List Char) →
    Option (List (List Char × List Char) × List Token)
  | .versionDirective major minor :: rest, seen, handles =>
    if seen || !(major == 1 && (minor == 1 || minor == 2)) then none
    else readDirectives? rest true handles
  | .tagDirective handle start :: rest, seen, handles =>
    if handles.any fun e => e.1 == handle then none
    else readDirectives? rest seen (handles ++ [(handle, start)])
  | rest, _, handles => some (handles, rest)

/-- Whether the tokens after a document's root end the text; marks of the document's end may come
before. -/
def endsText : List Token → Bool
  | [.streamEnd] => true
  | .documentEnd :: rest => endsText rest
  | _ => false

def ofRoot (r : Node × Remaining) : Document := ⟨r.1, endsText r.2.tokens⟩

def cutOff : Document := ⟨.broken, false⟩

def ofContent (handles : List (List Char × List Char)) : List Token → Document
  | [] => cutOff
  | ts@(t :: _) =>
    match t with
    | .versionDirective .. | .tagDirective .. | .documentStart | .documentEnd | .streamEnd =>
      ⟨.blank, endsText ts⟩
    | _ => ofRoot (readNode true false ⟨ts, [], handles ++ defaultHandles⟩)

/-- The document that a list of tokens spells.  A text without any has an empty root. -/
def ofTokens (ts : List Token) : Document :=
  match ts with
  | [] => cutOff
  | [.streamEnd] => ⟨.blank, true⟩
  | .documentStart :: rest => ofContent [] rest
  | .versionDirective .. :: _ | .tagDirective .. :: _ =>
    match readDirectives? ts false [] with
    | some (handles, .documentStart :: rest) => ofContent handles rest
    | _ => cutOff
  | _ => ofRoot (readNode true false ⟨ts, [], defaultHandles⟩)

def ofText (text : String) : Document := ofTokens (tokens text.toList)

def anchors (d : Document) : Anchors := ⟨d.root.anchored⟩

end Document

end WorkflowOperator.Yaml
