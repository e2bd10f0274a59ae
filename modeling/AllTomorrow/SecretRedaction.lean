import AllTomorrow.PythonValues
import AllTomorrow.TextPatterns

/-!
# Masked secrets

`overseer/redact.py`: the known secrets and the shapes of keys are masked first, then the values that are assigned to names
of credentials.
-/

namespace AllTomorrow.Redaction

open TextPattern

/-! ## Characters -/

def isUpper (c : Char) : Bool := 'A' ≤ c && c ≤ 'Z'

def isLower (c : Char) : Bool := 'a' ≤ c && c ≤ 'z'

def isDigit (c : Char) : Bool := '0' ≤ c && c ≤ '9'

/-- `[A-Za-z0-9]` -/
def isAlnum (c : Char) : Bool := isUpper c || isLower c || isDigit c

/-- `[A-Za-z0-9_\-]` -/
def isToken (c : Char) : Bool := isAlnum c || c = '_' || c = '-'

/-- What an ASCII letter matches if case is ignored: also the dotted and the dotless I, the long S and the Kelvin sign. -/
def sameLetter (letter c : Char) : Bool :=
  c.toUpper = letter || (letter = 'I' && (c.toNat = 0x130 || c.toNat = 0x131)) || (letter = 'S' && c.toNat = 0x17f) ||
    (letter = 'K' && c.toNat = 0x212a)

/-- `[A-Z0-9_\-]` without regard to case. -/
def isNamePart (c : Char) : Bool :=
  isToken c || c.toNat = 0x130 || c.toNat = 0x131 || c.toNat = 0x17f || c.toNat = 0x212a

def lit (s : String) : TextPattern := .literal s.toList

def atLeast (n : ℕ) (p : Char → Bool) : TextPattern := .repeated p n none false

def optional (p : Char → Bool) : TextPattern := .repeated p 0 (some 1) false

def inOrder (last : TextPattern) : List TextPattern → TextPattern
  | [] => last
  | p :: ps => .seq p (inOrder last ps)

def anyCase (word : String) : TextPattern := inOrder (.literal []) (word.toList.map fun letter => .one (sameLetter letter))

/-- `-----BEGIN [A-Z ]*PRIVATE KEY-----` or the end of it. -/
def keyLine (start : String) : TextPattern :=
  inOrder (lit "PRIVATE KEY-----") [lit start, atLeast 0 fun c => isUpper c || c = ' ']

/-- `_PATTERNS` without the last one. -/
def keyPatterns : List TextPattern :=
  [inOrder (atLeast 20 isToken) [lit "sk-"],
    inOrder (atLeast 30 isToken) [lit "AIza"],
    inOrder (atLeast 30 isAlnum) [anyOf (lit "ghr") [lit "ghp", lit "gho", lit "ghu", lit "ghs"], lit "_"],
    inOrder (atLeast 40 fun c => isAlnum c || c = '_') [lit "github_pat_"],
    inOrder (.repeated (fun c => isDigit c || isUpper c) 16 (some 16) false) [lit "AKIA"],
    inOrder (atLeast 10 fun c => isAlnum c || c = '-') [lit "xox", .one fun c => "abprs".toList.contains c, lit "-"],
    inOrder (atLeast 30 isAlnum) [lit "hf_"],
    inOrder (atLeast 30 isAlnum) [lit "gsk_"],
    inOrder (atLeast 30 isAlnum) [anyOf (lit "secret") [lit "ntn"], lit "_"],
    inOrder (atLeast 10 isToken) [lit "eyJ", atLeast 10 isToken, lit ".eyJ", atLeast 10 isToken, lit "."],
    inOrder (keyLine "-----END ") [keyLine "-----BEGIN ", .repeated (fun _ => true) 0 none true]]

/-- `(?i:bearer)\s+[A-Za-z0-9_\-\.=]{20,}` -/
def bearerPattern : TextPattern :=
  inOrder (atLeast 20 fun c => isToken c || c = '.' || c = '=') [anyCase "BEARER", atLeast 1 PyText.isSpace]

def credentialWord : TextPattern :=
  let dash := optional fun c => c = '_' || c = '-'
  anyOf (inOrder (anyCase "KEY") [anyCase "ACCESS", dash])
    [inOrder (anyCase "KEY") [anyCase "API", dash], anyCase "SECRET", anyCase "TOKEN", anyCase "PASSWORD", anyCase "PASSWD"]

def isQuote (c : Char) : Bool := c.toNat = 34 || c.toNat = 39

/-- The first group of `_ASSIGNMENT`: the name and what stands before the value. -/
def assignmentName (isWord : Char → Bool) : TextPattern :=
  inOrder (optional isQuote) [.boundary isWord, atLeast 0 isNamePart, credentialWord, atLeast 0 isNamePart, optional isQuote,
    atLeast 0 PyText.isSpace, .one fun c => c = '=' || c = ':', atLeast 0 PyText.isSpace]

def assignmentValue : TextPattern := atLeast 8 fun c => !(PyText.isSpace c || isQuote c || c = ',' || c = ';')

def minSecretLen : ℕ := 8

def mask : List Char := '[' :: "REDACTED".toList ++ [']']

def maskedValues (secretValues : List String) : List String :=
  (secretValues.filter fun v => minSecretLen ≤ v.length).insertionSort fun v w => w.length ≤ v.length

/-- `self._exact` -/
def exactPattern (secretValues : List String) : TextPattern :=
  anyOf bearerPattern ((maskedValues secretValues).map lit ++ keyPatterns)

def exactMatch (secretValues : List String) (before : Option Char) (text : List Char) : Option (ℕ × List Char) :=
  ((exactPattern secretValues).matchLength before text).map fun n => (n, mask)

def assignmentMatch (isWord : Char → Bool) (before : Option Char) (text : List Char) : Option (ℕ × List Char) :=
  (groupEnds (assignmentName isWord) assignmentValue before text).head?.map fun e => (e.2, text.take e.1 ++ mask)

/-- `Redactor(secret_values)(text)`; `isWord` tells what `\w` matches. -/
def redact (isWord : Char → Bool) (secretValues : List String) (text : String) : String :=
  if text = "" then text
  else
    let masked := substitute (exactMatch secretValues) 0 none text.toList
    String.ofList (substitute (assignmentMatch isWord) 0 none masked)

/-! ## Secrets -/

/-- A secret that the mask cannot be mistaken for. -/
structure Maskable (secret : String) : Prop where
  long : minSecretLen ≤ secret.length
  opening : '[' ∉ secret.toList
  closing : ']' ∉ secret.toList
  other : secret ≠ "REDACTED"

section

variable {isWord : Char → Bool} {secretValues : List String} {secret text : String}

theorem one_le_minLength_keyPatterns : ∀ p ∈ keyPatterns, 1 ≤ p.minLength := by
  decide

theorem mem_maskedValues {v : String} : v ∈ maskedValues secretValues ↔ v ∈ secretValues ∧ minSecretLen ≤ v.length := by
  rw [maskedValues, List.mem_insertionSort, List.mem_filter, decide_eq_true_eq]

theorem one_le_minLength_exactPattern (secretValues : List String) : 1 ≤ (exactPattern secretValues).minLength := by
  refine minLength_anyOf (by decide) fun p hp => ?_
  rcases List.mem_append.mp hp with hvalue | hkey
  · obtain ⟨v, hv, rfl⟩ := List.mem_map.mp hvalue
    have hlong : 8 ≤ v.toList.length := (mem_maskedValues.mp hv).2
    rw [lit, minLength]
    omega
  · exact one_le_minLength_keyPatterns p hkey

theorem not_misses_of_prefix (hsecret : secret ∈ maskedValues secretValues) {before : Option Char} {rest : List Char}
    (h : secret.toList <+: rest) : ¬Misses (exactMatch secretValues) before rest := by
  have hlit : lit secret ∈ (maskedValues secretValues).map lit ++ keyPatterns :=
    List.mem_append_left _ (List.mem_map.mpr ⟨secret, hsecret, rfl⟩)
  obtain ⟨n, hmatch, hpositive⟩ := @exists_matchLength (exactPattern secretValues) before rest _
    (mem_ends_anyOf hlit (mem_ends_literal before h))
  have hone := one_le_minLength_exactPattern secretValues
  obtain ⟨m, rfl⟩ := Nat.exists_eq_add_of_le' (hone.trans hpositive)
  intro hmisses
  exact hmisses m mask (by rw [exactMatch, hmatch]; rfl)

theorem masks_exactMatch (secretValues : List String) : Masks mask (exactMatch secretValues) := by
  intro before text n replacement h
  obtain ⟨m, -, hpair⟩ := Option.map_eq_some_iff.mp h
  cases hpair
  exact ⟨0, rfl⟩

theorem masks_assignmentMatch (isWord : Char → Bool) : Masks mask (assignmentMatch isWord) := by
  intro before text n replacement h
  obtain ⟨e, -, hpair⟩ := Option.map_eq_some_iff.mp h
  cases hpair
  exact ⟨e.1, rfl⟩

theorem Maskable.not_infix (h : Maskable secret) : ¬secret.toList <:+: "REDACTED".toList := by
  intro hwithin
  have hlong : 8 ≤ secret.toList.length := h.long
  have heq := hwithin.eq_of_length_le hlong
  exact h.other (String.toList_inj.mp heq)

theorem Maskable.ne_nil (h : Maskable secret) : secret.toList ≠ [] := by
  intro hnil
  exact h.not_infix (by rw [hnil]; exact List.nil_infix)

theorem not_infix_exact (hsecret : secret ∈ secretValues) (h : Maskable secret) (text : List Char) :
    ¬secret.toList <:+: substitute (exactMatch secretValues) 0 none text := by
  refine not_infix_substitute (masks_exactMatch secretValues) h.opening h.closing h.not_infix ?_ ?_
  · intro before rest _ hmisses hstarts
    exact not_misses_of_prefix (mem_maskedValues.mpr ⟨hsecret, h.long⟩) hstarts hmisses
  · intro before rest k n replacement _ hmatch hreplacement hwithin
    obtain ⟨m, -, hpair⟩ := Option.map_eq_some_iff.mp hmatch
    cases hpair
    have hlength := congrArg List.length hreplacement
    rw [List.length_append] at hlength
    have htake : rest.take k = [] := List.eq_nil_of_length_eq_zero (by unfold mask at hlength; omega)
    rw [htake, List.infix_nil] at hwithin
    exact h.ne_nil hwithin

theorem not_infix_assignment (h : Maskable secret) {text : List Char} (htext : ¬secret.toList <:+: text) :
    ¬secret.toList <:+: substitute (assignmentMatch isWord) 0 none text := by
  refine not_infix_substitute (masks_assignmentMatch isWord) h.opening h.closing h.not_infix ?_ ?_
  · intro before rest hsuffix _ hstarts
    exact htext (hstarts.isInfix.trans hsuffix.isInfix)
  · intro before rest k n replacement hsuffix _ _ hwithin
    exact htext (hwithin.trans ((List.take_prefix k rest).isInfix.trans hsuffix.isInfix))

/-- No secret is left, whatever the text is and whatever the secrets have in common with each other and with the patterns. -/
theorem no_secret_left (isWord : Char → Bool) (hsecret : secret ∈ secretValues) (h : Maskable secret) (text : String) :
    ¬secret.toList <:+: (redact isWord secretValues text).toList := by
  unfold redact
  split
  · next hempty =>
    rw [hempty]
    intro hwithin
    exact h.ne_nil (List.infix_nil.mp hwithin)
  · rw [String.toList_ofList]
    exact not_infix_assignment h (not_infix_exact hsecret h text.toList)

end

/-- Two secrets that overlap, in a line that assigns them. -/
theorem no_secret_left_overlapping :
    ¬"abcdefgh".toList <:+: (redact isAlnum ["abcdefgh", "ghijklmn"] "token=abcdefghijklmn").toList :=
  no_secret_left isAlnum (by decide) ⟨by decide, by decide, by decide, by decide⟩ _

end AllTomorrow.Redaction
