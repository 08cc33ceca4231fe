import Mathlib.Data.List.Basic
import Lifecycle.Json
import Lifecycle.Json.Parser

/-! JSON that is printed without blanks is read back. What is printed has a sequence of tokens,
which the reader finds in the text and from which the machine builds the value again. -/
namespace Lifecycle

namespace Json

namespace Token

namespace NumberPart

def run? (p : NumberPart) (cs : List Char) : Option NumberPart :=
  cs.foldlM next? p

private theorem run?_append (p : NumberPart) (cs ds : List Char) :
    p.run? (cs ++ ds) = (p.run? cs).bind (·.run? ds) :=
  List.foldlM_append

private theorem isDigit_of_minus_next? {c : Char} {p : NumberPart} (h : minus.next? c = some p) :
    Decimal.isDigit c = true := by
  unfold next? at h
  split at h
  next hd => exact hd
  next => cases h

private theorem next?_of_separator (p : NumberPart) {c : Char}
    (h : c = ',' ∨ c = ']' ∨ c = '\x7d') :
    p.next? c = none := by
  rcases h with rfl | rfl | rfl <;> cases p <;> rfl

private theorem run?_digits (n : Nat) :
    minus.run? (Decimal.digits n) = some (if n = 0 then zero else whole) := by
  induction n using Decimal.digits.induct with
  | case1 n h =>
    have hzero : ∀ d < 10, Nat.digitChar d = '0' ↔ d = 0 := by decide
    rw [Decimal.digits, if_pos h]
    simp [run?, next?, Decimal.isDigit_digitChar h, hzero n h]
  | case2 n h ih =>
    have hdigit := Decimal.isDigit_digitChar (d := n % 10) (by omega)
    rw [Decimal.digits, if_neg h, run?_append, ih, if_neg (by omega), if_neg (by omega)]
    simp [run?, next?, hdigit]

private theorem complete_of_digits (n : Nat) :
    ∃ p, minus.run? (Decimal.digits n) = some p ∧ p.isComplete = true := by
  refine ⟨_, run?_digits n, ?_⟩
  split <;> rfl

end NumberPart

def IsNumber (literal : List Char) : Prop :=
  ∃ cs p, (literal = cs ∨ literal = '-' :: cs) ∧ NumberPart.minus.run? cs = some p ∧
    p.isComplete = true

/-- The digits of a number are a number in JSON. -/
theorem isNumber_digits (n : Nat) : IsNumber (Decimal.digits n) :=
  have ⟨p, hrun, hp⟩ := NumberPart.complete_of_digits n
  ⟨_, p, .inl rfl, hrun, hp⟩

/-- With a minus or without, they are a number too. -/
theorem isNumber_signed (n : Int) : IsNumber (Decimal.signed n) := by
  unfold Decimal.signed
  split
  · obtain ⟨p, hrun, hp⟩ := NumberPart.complete_of_digits n.natAbs
    exact ⟨_, p, .inr rfl, hrun, hp⟩
  · exact isNumber_digits n.natAbs

private theorem not_surrogate (c : Char) : isHigh c.toNat = false ∧ isLow c.toNat = false := by
  have hvalid : c.toNat < 0xd800 ∨ 0xdfff < c.toNat ∧ c.toNat < 0x110000 := c.valid
  simp only [isHigh, isLow, Bool.and_eq_false_iff, decide_eq_false_iff_not]
  omega

private theorem ofUnits?_map_toNat (cs : List Char) : ofUnits? (cs.map Char.toNat) = some cs := by
  induction cs with
  | nil => rfl
  | cons c rest ih =>
    obtain ⟨hhigh, hlow⟩ := not_surrogate c
    cases rest with
    | nil => simp [ofUnits?, hhigh, hlow, Char.ofNat_toNat]
    | cons d rest =>
      simp only [List.map_cons] at ih ⊢
      simp [ofUnits?, hhigh, hlow, ih, Char.ofNat_toNat]

private theorem hexValue?_digitChar {d : Nat} (h : d < 16) :
    hexValue? (Nat.digitChar d) = some d := by
  revert d
  decide

namespace Reader
variable {ts : List Token} {us : List Nat} {rest : List Char}

def read (r : Reader) (cs : List Char) : Option (List Token) :=
  (cs.foldl step r).finish

private theorem read_cons (r : Reader) (c : Char) (cs : List Char) :
    r.read (c :: cs) = (r.step c).read cs := rfl

private theorem read_append (r : Reader) (cs ds : List Char) :
    r.read (cs ++ ds) = (cs.foldl step r).read ds := by
  rw [read, read, List.foldl_append]

private theorem outside_digit {c : Char} {p : NumberPart} (h : NumberPart.minus.next? c = some p) :
    (⟨.between, ts⟩ : Reader).outside c = ⟨.number p [c], ts⟩ := by
  have hd := NumberPart.isDigit_of_minus_next? h
  unfold outside
  split
  all_goals first
    | exact absurd hd (by decide)
    | simp only [h]

private theorem step_number {p p' : NumberPart} {c : Char} {literal : List Char}
    (h : p.next? c = some p') :
    step ⟨.number p literal, ts⟩ c = ⟨.number p' (c :: literal), ts⟩ := by
  simp only [step, h]

private theorem foldl_number {p p' : NumberPart} {cs literal : List Char}
    (h : p.run? cs = some p') :
    cs.foldl step ⟨.number p literal, ts⟩ = ⟨.number p' (cs.reverse ++ literal), ts⟩ := by
  induction cs generalizing p literal with
  | nil => cases h; rfl
  | cons c cs ih =>
    obtain ⟨next, hnext, hrun⟩ := Option.bind_eq_some_iff.mp h
    rw [List.foldl_cons, step_number hnext, ih hrun, List.reverse_cons, List.append_assoc,
      List.singleton_append]

/-- A value ends here: the text ends, or something follows that separates values. -/
def Ends (rest : List Char) : Prop :=
  ∀ c ∈ rest.head?, c = ',' ∨ c = ']' ∨ c = '\x7d'

private theorem read_number_end {p : NumberPart} {literal : List Char} (hp : p.isComplete = true)
    (hrest : Ends rest) :
    read ⟨.number p literal, ts⟩ rest = read ⟨.between, .number literal.reverse :: ts⟩ rest := by
  -- A number is noticed only when it is over.
  cases rest with
  | nil => simp [read, finish, hp]
  | cons c rest =>
    have hnone := p.next?_of_separator (hrest c rfl)
    have hstep : step ⟨.number p literal, ts⟩ c =
        step ⟨.between, .number literal.reverse :: ts⟩ c := by
      simp only [step, hnone, hp, if_true]
      rfl
    rw [read, read, List.foldl_cons, List.foldl_cons, hstep]

/-- Between two tokens the characters `cs` are read as the tokens `us`, if `rest` follows. -/
def Scans (cs : List Char) (us : List Token) (rest : List Char) : Prop :=
  ∀ ts, read ⟨.between, ts⟩ (cs ++ rest) = read ⟨.between, us.reverse ++ ts⟩ rest

private theorem Scans.append {cs ds : List Char} {us vs : List Token} (h : Scans cs us (ds ++ rest))
    (h' : Scans ds vs rest) : Scans (cs ++ ds) (us ++ vs) rest := by
  intro ts
  rw [List.append_assoc, h, h', List.reverse_append, List.append_assoc]

private theorem Scans.cons {c : Char} {t : Token} {ds : List Char} {vs : List Token}
    (h : ∀ ts, step ⟨.between, ts⟩ c = ⟨.between, t :: ts⟩) (h' : Scans ds vs rest) :
    Scans (c :: ds) (t :: vs) rest := by
  intro ts
  rw [List.cons_append, read_cons, h, h', List.reverse_cons, List.append_assoc,
    List.singleton_append]

private theorem scans_number {literal : List Char} (h : IsNumber literal) (hrest : Ends rest) :
    Scans literal [.number literal] rest := by
  intro ts
  obtain ⟨cs, p, hliteral, hrun, hp⟩ := h
  have hfold : literal.foldl step ⟨.between, ts⟩ = ⟨.number p literal.reverse, ts⟩ := by
    rcases hliteral with rfl | rfl
    · cases literal with
      | nil => cases hrun; cases hp
      | cons c cs =>
        obtain ⟨first, hfirst, hcs⟩ := Option.bind_eq_some_iff.mp hrun
        have hc : step ⟨.between, ts⟩ c = ⟨.number first [c], ts⟩ := outside_digit hfirst
        rw [List.foldl_cons, hc, foldl_number hcs, List.reverse_cons]
    · have hminus : step ⟨.between, ts⟩ '-' = ⟨.number .minus ['-'], ts⟩ := rfl
      rw [List.foldl_cons, hminus, foldl_number hrun, List.reverse_cons]
  rw [read_append, hfold, read_number_end hp hrest, List.reverse_reverse]
  rfl

private theorem step_code {missing soFar d : Nat} (h : d < 16) :
    step ⟨.string (.code missing soFar) us, ts⟩ (Nat.digitChar d) =
      if missing ≤ 1 then ⟨.string .plain ((16 * soFar + d) :: us), ts⟩
      else ⟨.string (.code (missing - 1) (16 * soFar + d)) us, ts⟩ := by
  simp only [step, inString, hexValue?_digitChar h]

private theorem foldl_hexDigits {n : Nat} (h : n < 65536) :
    (Text.hexDigits 4 n).foldl step ⟨.string (.code 4 0) us, ts⟩ =
      ⟨.string .plain (n :: us), ts⟩ := by
  have hdigits : Text.hexDigits 4 n = [Nat.digitChar (n / 16 / 16 / 16 % 16),
      Nat.digitChar (n / 16 / 16 % 16), Nat.digitChar (n / 16 % 16), Nat.digitChar (n % 16)] := rfl
  have hmod (m : Nat) : m % 16 < 16 := Nat.mod_lt m (by decide)
  simp only [hdigits, List.foldl_cons, List.foldl_nil, step_code (hmod _), Nat.reduceLeDiff,
    if_true, if_false, Nat.reduceSub]
  congr 3
  omega

private theorem foldl_escape (c : Char) :
    (escape c).foldl step ⟨.string .plain us, ts⟩ = ⟨.string .plain (c.toNat :: us), ts⟩ := by
  unfold escape
  split
  all_goals try rfl
  next hquote hbackslash _ _ _ _ _ =>
    split
    next hlow =>
      have hn : c.toNat < 65536 := by
        have : c.toNat < 32 := hlow
        omega
      exact foldl_hexDigits hn
    next hlow =>
      simp [step, inString, hlow]

private theorem foldl_escapes (cs : List Char) :
    (cs.flatMap escape).foldl step ⟨.string .plain us, ts⟩ =
      ⟨.string .plain ((cs.map Char.toNat).reverse ++ us), ts⟩ := by
  induction cs generalizing us with
  | nil => rfl
  | cons c cs ih =>
    rw [List.flatMap_cons, List.foldl_append, foldl_escape, ih, List.map_cons, List.reverse_cons,
      List.append_assoc, List.singleton_append]

/-- A text comes back from between its quotation marks. -/
theorem scans_quoted (s : String) (rest : List Char) :
    Scans (quoted s) [.string (some s)] rest := by
  intro ts
  have hopen : step ⟨.between, ts⟩ '"' = ⟨.string .plain [], ts⟩ := rfl
  have hclose : step ⟨.string .plain ((s.toList.map Char.toNat).reverse), ts⟩ '"' =
      ⟨.between, .string (some s) :: ts⟩ := by
    have hunits := ofUnits?_map_toNat s.toList
    simp only [step, inString, List.reverse_reverse, hunits, Option.map_some, String.ofList_toList]
    rfl
  rw [quoted, List.cons_append, List.cons_append, List.append_assoc, read_cons, hopen, read_append,
    foldl_escapes, List.append_nil, List.singleton_append, read_cons, hclose]
  rfl

end Reader

end Token

/-- What may be printed: numbers are spelled as numbers are, and every text is one. -/
inductive WellFormed : Json → Prop
  | null : WellFormed .null
  | bool (b : Bool) : WellFormed (.bool b)
  | number {literal : List Char} (h : Token.IsNumber literal) : WellFormed (.number literal)
  | text (s : String) : WellFormed (.string (some s))
  | array {items : List Json} (h : ∀ v ∈ items, v.WellFormed) : WellFormed (.array items)
  | object {entries : List (Option String × Json)}
      (hkeys : ∀ e ∈ entries, e.1.isSome = true) (h : ∀ e ∈ entries, e.2.WellFormed) :
      WellFormed (.object entries)

mutual

def tokens : Json → List Token
  | null => [.null]
  | bool b => [.bool b]
  | number literal => [.number literal]
  | string s => [.string s]
  | array [] => [.openArray, .closeArray]
  | array (v :: rest) => .openArray :: v.tokens ++ itemTokens rest
  | object [] => [.openObject, .closeObject]
  | object ((key, v) :: rest) =>
    .openObject :: .string key :: .colon :: v.tokens ++ entryTokens rest

def itemTokens : List Json → List Token
  | [] => [.closeArray]
  | v :: rest => .comma :: v.tokens ++ itemTokens rest

def entryTokens : List (Option String × Json) → List Token
  | [] => [.closeObject]
  | (key, v) :: rest => .comma :: .string key :: .colon :: v.tokens ++ entryTokens rest

end

open Token.Reader (Ends Scans scans_number scans_quoted)

private theorem ends_compactItems (items : List Json) (rest : List Char) :
    Ends (compactItems items ++ rest) := by
  intro c hc
  cases items with
  | nil => exact .inr (.inl (Option.some.inj hc).symm)
  | cons => exact .inl (Option.some.inj hc).symm

private theorem ends_compactEntries (entries : List (Option String × Json)) (rest : List Char) :
    Ends (compactEntries entries ++ rest) := by
  intro c hc
  cases entries with
  | nil => exact .inr (.inr (Option.some.inj hc).symm)
  | cons => exact .inl (Option.some.inj hc).symm

private theorem scans_entry {key : Option String} {cs rest : List Char} {us : List Token}
    (hkey : key.isSome = true) (h : Scans cs us rest) :
    Scans (quoted? key ++ ':' :: cs) (.string key :: .colon :: us) rest := by
  cases key with
  | none => cases hkey
  | some s => exact (scans_quoted s _).append (.cons (fun _ => rfl) h)

mutual

/-- The reader finds the tokens of a value in its text. -/
theorem scans_compactChars {rest : List Char} (hrest : Ends rest) :
    (v : Json) → WellFormed v → Scans v.compactChars v.tokens rest
  | .null, _ => fun _ => rfl
  | .bool true, _ => fun _ => rfl
  | .bool false, _ => fun _ => rfl
  | .number _, .number h => scans_number h hrest
  | .string (some s), _ => scans_quoted s rest
  | .array [], _ => fun _ => rfl
  | .array (v :: items), .array h =>
    have hv := scans_compactChars (ends_compactItems items rest) v (h v List.mem_cons_self)
    have hitems := scans_compactItems items fun u hu => h u (List.mem_cons_of_mem v hu)
    .cons (fun _ => rfl) (hv.append hitems)
  | .object [], _ => fun _ => rfl
  | .object ((_, v) :: entries), .object hkeys h =>
    have hv := scans_compactChars (ends_compactEntries entries rest) v (h _ List.mem_cons_self)
    have hentries := scans_compactEntries entries
      (fun e he => hkeys e (List.mem_cons_of_mem _ he)) fun e he => h e (List.mem_cons_of_mem _ he)
    .cons (fun _ => rfl) ((scans_entry (hkeys _ List.mem_cons_self) hv).append hentries)

private theorem scans_compactItems {rest : List Char} :
    (items : List Json) → (∀ v ∈ items, WellFormed v) →
      Scans (compactItems items) (itemTokens items) rest
  | [], _ => fun _ => rfl
  | v :: items, h =>
    have hv := scans_compactChars (ends_compactItems items rest) v (h v List.mem_cons_self)
    have hitems := scans_compactItems items fun u hu => h u (List.mem_cons_of_mem v hu)
    .cons (fun _ => rfl) (hv.append hitems)

private theorem scans_compactEntries {rest : List Char} :
    (entries : List (Option String × Json)) → (∀ e ∈ entries, e.1.isSome = true) →
      (∀ e ∈ entries, WellFormed e.2) → Scans (compactEntries entries) (entryTokens entries) rest
  | [], _, _ => fun _ => rfl
  | (_, v) :: entries, hkeys, h =>
    have hv := scans_compactChars (ends_compactEntries entries rest) v (h _ List.mem_cons_self)
    have hentries := scans_compactEntries entries
      (fun e he => hkeys e (List.mem_cons_of_mem _ he)) fun e he => h e (List.mem_cons_of_mem _ he)
    .cons (fun _ => rfl) ((scans_entry (hkeys _ List.mem_cons_self) hv).append hentries)

end

private theorem scan?_compactChars {v : Json} (h : v.WellFormed) :
    Token.scan? v.compactChars = some v.tokens := by
  have hscans : Scans v.compactChars v.tokens [] := scans_compactChars (by simp [Ends]) v h
  have hread := hscans []
  rw [List.append_nil, List.append_nil] at hread
  refine hread.trans ?_
  change some v.tokens.reverse.reverse = some v.tokens
  rw [List.reverse_reverse]

namespace Machine

mutual

/-- The machine builds a value from its tokens, wherever one may stand. -/
theorem foldl_tokens :
    (v : Json) → ∀ {e : Expected} (stack : List Frame), (e = .value ∨ e = .valueOrClose) →
      v.tokens.foldl step ⟨e, stack⟩ = put v stack
  | .null, _, _, he => by rcases he with rfl | rfl <;> rfl
  | .bool _, _, _, he => by rcases he with rfl | rfl <;> rfl
  | .number _, _, _, he => by rcases he with rfl | rfl <;> rfl
  | .string _, _, _, he => by rcases he with rfl | rfl <;> rfl
  | .array [], _, _, he => by rcases he with rfl | rfl <;> rfl
  | .array (v :: items), e, stack, he => by
    have hopen : step ⟨e, stack⟩ .openArray = ⟨.valueOrClose, .items [] :: stack⟩ := by
      rcases he with rfl | rfl <;> rfl
    rw [tokens, List.cons_append, List.foldl_cons, hopen, List.foldl_append,
      foldl_tokens v _ (.inr rfl)]
    exact foldl_itemTokens items [v] stack
  | .object [], _, _, he => by rcases he with rfl | rfl <;> rfl
  | .object ((key, v) :: entries), e, stack, he => by
    have hopen : step ⟨e, stack⟩ .openObject = ⟨.keyOrClose, .entries [] :: stack⟩ := by
      rcases he with rfl | rfl <;> rfl
    have hkey : step ⟨.keyOrClose, .entries [] :: stack⟩ (.string key) =
        ⟨.colon, .entry key [] :: stack⟩ := rfl
    have hcolon : step ⟨.colon, .entry key [] :: stack⟩ .colon =
        ⟨.value, .entry key [] :: stack⟩ := rfl
    rw [tokens, List.cons_append, List.cons_append, List.cons_append, List.foldl_cons, hopen,
      List.foldl_cons, hkey, List.foldl_cons, hcolon, List.foldl_append,
      foldl_tokens v _ (.inl rfl)]
    exact foldl_entryTokens entries [(key, v)] stack

private theorem foldl_itemTokens :
    (items built : List Json) → (stack : List Frame) →
      (itemTokens items).foldl step ⟨.separator, .items built :: stack⟩ =
        put (.array (built.reverse ++ items)) stack
  | [], built, stack => by rw [List.append_nil]; rfl
  | v :: items, built, stack => by
    have hcomma : step ⟨.separator, .items built :: stack⟩ .comma =
        ⟨.value, .items built :: stack⟩ := rfl
    rw [itemTokens, List.cons_append, List.foldl_cons, hcomma, List.foldl_append,
      foldl_tokens v _ (.inl rfl)]
    refine (foldl_itemTokens items (v :: built) stack).trans ?_
    rw [List.reverse_cons, List.append_assoc, List.singleton_append]

private theorem foldl_entryTokens :
    (entries built : List (Option String × Json)) → (stack : List Frame) →
      (entryTokens entries).foldl step ⟨.separator, .entries built :: stack⟩ =
        put (.object (built.reverse ++ entries)) stack
  | [], built, stack => by rw [List.append_nil]; rfl
  | (key, v) :: entries, built, stack => by
    have hcomma : step ⟨.separator, .entries built :: stack⟩ .comma =
        ⟨.key, .entries built :: stack⟩ := rfl
    have hkey : step ⟨.key, .entries built :: stack⟩ (.string key) =
        ⟨.colon, .entry key built :: stack⟩ := rfl
    have hcolon : step ⟨.colon, .entry key built :: stack⟩ .colon =
        ⟨.value, .entry key built :: stack⟩ := rfl
    rw [entryTokens, List.cons_append, List.cons_append, List.cons_append, List.foldl_cons, hcomma,
      List.foldl_cons, hkey, List.foldl_cons, hcolon, List.foldl_append,
      foldl_tokens v _ (.inl rfl)]
    refine (foldl_entryTokens entries ((key, v) :: built) stack).trans ?_
    rw [List.reverse_cons, List.append_assoc, List.singleton_append]

end

end Machine

private theorem ofTokens?_tokens (v : Json) : ofTokens? v.tokens = some v := by
  have h : v.tokens.foldl Machine.step .start = ⟨.finished v, []⟩ :=
    Machine.foldl_tokens v [] (.inl rfl)
  rw [ofTokens?, h]

/-- What is printed on one line is parsed as the value it came from. -/
theorem parse?_compact {v : Json} (h : v.WellFormed) : parse? v.compact = some v := by
  rw [parse?, compact, String.toList_ofList, scan?_compactChars h, Option.bind_some,
    ofTokens?_tokens]

end Json

end Lifecycle
