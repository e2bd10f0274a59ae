import Mathlib.Data.List.Infix
import Mathlib.Data.List.Sort
import AllTomorrow.FactoryStore

/-!
# Profile snapshots of the idea factory

What `fetch_profile` records of the configured sources, what of it a member of the staff may see,
and the transcript of the council as a listener gets it.
-/

namespace AllTomorrow.IdeaFactory

structure ProfileSource where
  name : String
  kind : String
  level : ℤ
  scope : String
  deriving DecidableEq

structure SourceItem where
  level : ℤ
  scope : String
  text : String
  error : Option String := none
  deriving DecidableEq

abbrev Snapshot := InsertionDict String SourceItem

/-- `text[:n]`. -/
def clip (n : ℕ) (text : String) : String := String.ofList (text.toList.take n)

/-- `MAX_CHARS` -/
def maxChars : ℕ := 1500

/-- The item of one source; `digest` answers with a text or the name of the exception it raised. -/
def fetchItem (digest : ProfileSource → Except String String) (source : ProfileSource) : SourceItem :=
  match digest source with
  | .ok text => { level := source.level, scope := source.scope, text := clip maxChars text }
  | .error kind => { level := source.level, scope := source.scope, text := "", error := some kind }

def fetchProfile (digest : ProfileSource → Except String String) (sources : List ProfileSource) : Snapshot :=
  sources.foldl (fun profile source => profile.set source.name (fetchItem digest source)) .empty

def SourceItem.visibleTo (item : SourceItem) (level : ℤ) (scopes : List String) : Bool :=
  item.text ≠ "" && item.level ≤ level && item.scope ∈ scopes

def visible (profile : Snapshot) (level : ℤ) (scopes : List String) : List (String × String) :=
  (profile.entries.filter fun e => e.2.visibleTo level scopes).map fun e => (e.1, e.2.text)

def contextBlock (profile : Snapshot) (member : Staff) : String :=
  let items := visible profile member.accessLevel member.accessScopes
  if items.isEmpty then ""
  else "\n\n[의뢰인 정보 — 네 권한 범위에서만 제공됨. 이 아이디어를 실행할 사람이 이 의뢰인이다. " ++ "판단의 척도로 쓰되 그대로 옮겨 적지 않는다]\n" ++
    "\n".intercalate (items.map fun e => "<" ++ e.1 ++ ">\n" ++ e.2)

/-- `council_share` -/
inductive ShareMode where
  | summary | full | filtered
  deriving DecidableEq, Repr

/-- A vote as its step returns it. A vote of an earlier version has no sources. -/
structure Vote where
  round : ℕ
  role : String
  staffId : String
  name : String
  stance : Stance
  reason : String
  sources : Option (List String)
  reasonPublic : Option String := none
  deriving DecidableEq

def Stance.value : Stance → String
  | .support => "support"
  | .oppose => "oppose"
  | .conditional => "conditional"

/-- The classes `\d` and `\w` of regular expressions. -/
structure CharClasses where
  digit : Char → Bool
  word : Char → Bool

/-- The matches of `[\w가-힣]{3,}`. -/
def CharClasses.words (classes : CharClasses) (text : String) : List (List Char) :=
  (text.toList.splitOnP fun c => !(classes.word c || ('가' ≤ c && c ≤ '힣'))).filter fun w => 3 ≤ w.length

/-- The summary has a digit, or a word of a text that the listener may not see. -/
def leaks (classes : CharClasses) (text : String) (hidden : List String) : Bool :=
  text.toList.any classes.digit || (hidden.flatMap classes.words).any fun w => decide (w <:+: text.toList)

def omitted : String := "(권한 밖 근거 생략)"

def sourcesOf (member : Staff) (snapshot : Snapshot) : List String :=
  ((visible snapshot member.accessLevel member.accessScopes).map Prod.fst).insertionSort (· ≤ ·)

/-- `[snapshot[s]["text"] for s in names if s in snapshot]`. -/
def textsOf (snapshot : Snapshot) (names : List String) : List String :=
  names.filterMap fun name => (snapshot.get? name).map SourceItem.text

def reasonFor (mode : ShareMode) (classes : CharClasses) (allowed : List String) (snapshot : Snapshot) (v : Vote) : String :=
  match v.sources with
  | none => if mode = .full then v.reason else omitted
  | some known =>
    if mode = .full ∨ known ⊆ allowed then v.reason
    else match mode, v.reasonPublic with
      | .summary, some summary =>
        if summary = "" then omitted
        else
          let hidden := (textsOf snapshot (known.filter fun name => name ∉ allowed)).filter fun t =>
            t ∉ textsOf snapshot allowed
          if leaks classes summary hidden then omitted else "(요약) " ++ summary
      | _, _ => omitted

def transcriptFor (mode : ShareMode) (classes : CharClasses) (listenerSources : List String) (transcript : List Vote)
    (snapshot : Snapshot) (tag : String := "라운드") : String :=
  "\n".intercalate (transcript.map fun v => "[" ++ toString v.round ++ tag ++ " " ++ v.name ++ "] " ++ v.stance.value ++
    ": " ++ reasonFor mode classes listenerSources snapshot v)

end AllTomorrow.IdeaFactory
