import Mathlib.Algebra.GroupWithZero.Nat
import Mathlib.Data.List.Induction
import Mathlib.Tactic.Common

/-!
# Texts of IP addresses

`IpAddr` of the standard library: `FromStr` and `Display`. Every address reads back from its text, and a text reads as
the same address in either case of its letters.
-/

namespace Ngnet.IpAddresses

abbrev Text := List Char

/-! ## Numbers -/

def digitValue (c : Char) : Option ℕ :=
  if '0' ≤ c ∧ c ≤ '9' then some (c.toNat - 48)
  else if 'a' ≤ c ∧ c ≤ 'z' then some (c.toNat - 87)
  else if 'A' ≤ c ∧ c ≤ 'Z' then some (c.toNat - 55)
  else none

/-- `char::to_digit`. -/
def toDigit (radix : ℕ) (c : Char) : Option ℕ := (digitValue c).filter (· < radix)

/-- The loop of `read_number`: the number so far, and how many digits it has. -/
def readDigits (radix maxDigits : ℕ) : ℕ → ℕ → Text → Option (ℕ × ℕ × Text)
  | result, count, [] => some (result, count, [])
  | result, count, c :: rest =>
    match toDigit radix c with
    | none => some (result, count, c :: rest)
    | some digit =>
      if maxDigits < count + 1 then none
      else readDigits radix maxDigits (result * radix + digit) (count + 1) rest

/-- `read_number`; the type that is read has the numbers below `bound`. -/
def readNumber (radix maxDigits : ℕ) (allowZeroPrefix : Bool) (bound : ℕ) (text : Text) : Option (ℕ × Text) :=
  match readDigits radix maxDigits 0 0 text with
  | none => none
  | some (result, count, rest) =>
    if count = 0 then none
    else if allowZeroPrefix = false ∧ text.head? = some '0' ∧ 1 < count then none
    else if result < bound then some (result, rest) else none

/-- The digits of a number below `radix ^ fuel`. -/
def digits (radix : ℕ) : ℕ → ℕ → List ℕ
  | 0, _ => []
  | fuel + 1, n => if n < radix then [n] else digits radix fuel (n / radix) ++ [n % radix]

/-- The text of a number of 16 bits. -/
def written (radix n : ℕ) : Text := (digits radix 5 n).map Nat.digitChar

section Numbers
variable {radix maxDigits : ℕ}

theorem digits_value {fuel n : ℕ} (hlt : n < radix ^ fuel) :
    (digits radix fuel n).foldl (fun result digit => result * radix + digit) 0 = n := by
  induction fuel generalizing n with
  | zero =>
    simp only [Nat.pow_zero, Nat.lt_one_iff] at hlt
    simp [digits, hlt]
  | succ fuel ih =>
    rw [digits]
    split
    · simp
    · have hquotient : n / radix < radix ^ fuel := Nat.div_lt_of_lt_mul (by rwa [← Nat.pow_succ'])
      rw [List.foldl_append, ih hquotient]
      exact Nat.div_add_mod' n radix

theorem digits_lt {fuel n : ℕ} (hradix : 0 < radix) : ∀ digit ∈ digits radix fuel n, digit < radix := by
  induction fuel generalizing n with
  | zero => simp [digits]
  | succ fuel ih =>
    intro digit hdigit
    rw [digits] at hdigit
    split at hdigit
    · next hlt =>
      obtain rfl := List.mem_singleton.mp hdigit
      exact hlt
    · rcases List.mem_append.mp hdigit with hmem | hmem
      · exact ih digit hmem
      · obtain rfl := List.mem_singleton.mp hmem
        exact Nat.mod_lt n hradix

theorem digits_length {fuel count n : ℕ} (hlt : n < radix ^ (count + 1)) :
    (digits radix fuel n).length ≤ count + 1 := by
  induction fuel generalizing count n with
  | zero => simp [digits]
  | succ fuel ih =>
    rw [digits]
    split
    · simp
    · next hge =>
      have hquotient : n / radix < radix ^ count := Nat.div_lt_of_lt_mul (by rwa [← Nat.pow_succ'])
      cases count with
      | zero => simp at hlt hge; omega
      | succ count => simpa using ih hquotient

theorem digits_ne_nil {fuel n : ℕ} (hlt : n < radix ^ fuel) (hn : 0 < n) : digits radix fuel n ≠ [] := by
  cases fuel with
  | zero => simp at hlt; omega
  | succ fuel =>
    rw [digits]
    split <;> simp

theorem digits_head {fuel n : ℕ} (hlt : n < radix ^ fuel) (hhead : (digits radix fuel n).head? = some 0) : n = 0 := by
  induction fuel generalizing n with
  | zero => simp [digits] at hhead
  | succ fuel ih =>
    rw [digits] at hhead
    split at hhead
    · simpa using hhead
    · next hge =>
      have hquotient : n / radix < radix ^ fuel := Nat.div_lt_of_lt_mul (by rwa [← Nat.pow_succ'])
      by_cases hzero : n / radix = 0
      · have hradix : radix = 0 := by
          rcases Nat.div_eq_zero_iff.mp hzero with hradix | hlt
          · exact hradix
          · exact absurd hlt hge
        subst hradix
        simp at hlt
      · obtain ⟨first, more, hdigits⟩ :=
          List.exists_cons_of_ne_nil (digits_ne_nil hquotient (Nat.pos_of_ne_zero hzero))
        have hfirst : (digits radix fuel (n / radix)).head? = some 0 := by
          rw [hdigits] at hhead ⊢
          exact hhead
        exact absurd (ih hquotient hfirst) hzero

theorem toDigit_digitChar {digit : ℕ} (hradix : radix ≤ 16) (hdigit : digit < radix) :
    toDigit radix (Nat.digitChar digit) = some digit := by
  have hall : ∀ d < 16, toDigit 16 (Nat.digitChar d) = some d := by decide
  have hsixteen := hall digit (Nat.lt_of_lt_of_le hdigit hradix)
  simp only [toDigit, Option.filter_eq_some_iff] at hsixteen ⊢
  exact ⟨hsixteen.1, by simpa using hdigit⟩

/-- A text that does not go on with a digit. -/
def Ends (radix : ℕ) (rest : Text) : Prop := ∀ c, rest.head? = some c → toDigit radix c = none

theorem readDigits_written (hradix : radix ≤ 16) {values : List ℕ} (hvalues : ∀ digit ∈ values, digit < radix)
    {rest : Text} (hrest : Ends radix rest) {result count : ℕ} (hcount : count + values.length ≤ maxDigits) :
    readDigits radix maxDigits result count (values.map Nat.digitChar ++ rest) =
      some (values.foldl (fun result digit => result * radix + digit) result, count + values.length, rest) := by
  induction values generalizing result count with
  | nil =>
    cases rest with
    | nil => rfl
    | cons c rest => simp [readDigits, hrest c rfl]
  | cons digit values ih =>
    simp only [List.length_cons] at hcount
    have hfits : ¬ maxDigits < count + 1 := by omega
    have hlater := @ih (fun other hother => hvalues other (by simp [hother])) (result * radix + digit) (count + 1) (by omega)
    rw [List.map_cons, List.cons_append, readDigits, toDigit_digitChar hradix (hvalues digit (by simp))]
    simp only [if_neg hfits, hlater, List.foldl_cons, List.length_cons]
    congr 3
    omega

theorem readNumber_written {n bound count : ℕ} {allowZeroPrefix : Bool} {rest : Text} (hradix : 1 < radix) (hle : radix ≤ 16)
    (hbound : n < bound) (hcount : n < radix ^ (count + 1)) (hfuel : n < radix ^ 5) (hrest : Ends radix rest) :
    readNumber radix (count + 1) allowZeroPrefix bound (written radix n ++ rest) = some (n, rest) := by
  have hlength := @digits_length radix 5 count n hcount
  have hread := @readDigits_written radix (count + 1) hle _ (@digits_lt radix 5 n (by omega)) rest hrest 0 0 (by omega)
  rw [digits_value hfuel, Nat.zero_add] at hread
  obtain ⟨first, more, hdigits⟩ : ∃ first more, digits radix 5 n = first :: more := by
    apply List.exists_cons_of_ne_nil
    rw [digits]
    split <;> simp
  have hzero : ¬ (allowZeroPrefix = false ∧ (written radix n ++ rest).head? = some '0' ∧
      1 < (digits radix 5 n).length) := by
    rintro ⟨-, hhead, hlong⟩
    have hchar : Nat.digitChar first = '0' := by simpa [written, hdigits] using hhead
    have hfirst : first = 0 := by
      have hself := toDigit_digitChar hle (digits_lt (by omega) first (by rw [hdigits]; simp))
      have hnil := toDigit_digitChar hle (show 0 < radix by omega)
      rw [hchar] at hself
      exact Option.some.inj (hself.symm.trans hnil)
    obtain rfl := digits_head hfuel (by rw [hdigits, hfirst]; rfl)
    simp [digits, show 0 < radix by omega] at hlong
  have hsome : (digits radix 5 n).length ≠ 0 := by simp [hdigits]
  rw [readNumber, written, hread]
  simp only [if_neg hsome, if_pos hbound]
  rw [written] at hzero
  rw [if_neg hzero]

end Numbers

/-! ## Addresses -/

structure Ipv4Addr where
  a : UInt8
  b : UInt8
  c : UInt8
  d : UInt8
  deriving DecidableEq, Repr

structure Ipv6Addr where
  segments : List UInt16
  length_eq : segments.length = 8
  deriving DecidableEq, Repr

inductive IpAddr
  | v4 (addr : Ipv4Addr)
  | v6 (addr : Ipv6Addr)
  deriving DecidableEq, Repr

/-- The two segments that the octets of an IPv4 address make. -/
def Ipv4Addr.segments (addr : Ipv4Addr) : List UInt16 :=
  [(addr.a.toNat * 256 + addr.b.toNat).toUInt16, (addr.c.toNat * 256 + addr.d.toNat).toUInt16]

/-! ## Reading -/

variable {α : Type}

def readSeparator (separator : Char) (index : ℕ) (read : Text → Option (α × Text)) (text : Text) : Option (α × Text) :=
  if index = 0 then read text
  else match text with
    | [] => none
    | c :: rest => if c = separator then read rest else none

def readOctet (index : ℕ) (text : Text) : Option (ℕ × Text) :=
  readSeparator '.' index (readNumber 10 3 false 256) text

def readIpv4Addr (text : Text) : Option (Ipv4Addr × Text) :=
  (readOctet 0 text).bind fun a => (readOctet 1 a.2).bind fun b => (readOctet 2 b.2).bind fun c =>
    (readOctet 3 c.2).map fun d => (⟨a.1.toUInt8, b.1.toUInt8, c.1.toUInt8, d.1.toUInt8⟩, d.2)

def readGroup (index : ℕ) (text : Text) : Option (ℕ × Text) :=
  readSeparator ':' index (readNumber 16 4 true 65536) text

/-- `read_groups` from the group at `index`, of which `left` are left: the groups, whether they end with an IPv4
address, and what is left of the text. -/
def readGroups : ℕ → ℕ → Text → (List UInt16 × Bool) × Text
  | 0, _, text => (([], false), text)
  | left + 1, index, text =>
    match if 0 < left then readSeparator ':' index readIpv4Addr text else none with
    | some (addr, rest) => ((addr.segments, true), rest)
    | none =>
      match readGroup index text with
      | none => (([], false), text)
      | some (group, rest) =>
        let later := readGroups left (index + 1) rest
        ((group.toUInt16 :: later.1.1, later.1.2), later.2)

theorem readGroups_length (left index : ℕ) (text : Text) : (readGroups left index text).1.1.length ≤ left := by
  induction left generalizing index text with
  | zero => simp [readGroups]
  | succ left ih =>
    rw [readGroups]
    split
    · next haddr =>
      split at haddr
      · simp only [Ipv4Addr.segments, List.length_cons, List.length_nil]
        omega
      · cases haddr
    · split
      · simp
      · simpa using ih _ _

/-- The groups before `::` and those behind it. -/
def join (front back : List UInt16) : List UInt16 :=
  front ++ List.replicate (8 - front.length - back.length) 0 ++ back

theorem length_join {front back : List UInt16} (h : front.length + back.length ≤ 8) : (join front back).length = 8 := by
  simp only [join, List.length_append, List.length_replicate]
  omega

/-- The segments of `read_ipv6_addr`, behind those that stand before `::`. -/
def readBack (front : List UInt16) (ipv4 : Bool) (text : Text) : Option (List UInt16 × Text) :=
  if front.length = 8 then some (front, text)
  -- An IPv4 address may not stand before `::`.
  else if ipv4 then none
  else match text with
    | ':' :: ':' :: rest =>
      let back := readGroups (8 - (front.length + 1)) 0 rest
      some (join front back.1.1, back.2)
    | _ => none

def readSegments (text : Text) : Option (List UInt16 × Text) :=
  let front := readGroups 8 0 text
  readBack front.1.1 front.1.2 front.2

theorem length_readSegments {text : Text} : ∀ found, readSegments text = some found → found.1.length = 8 := by
  intro found hfound
  have hfront := readGroups_length 8 0 text
  rw [readSegments] at hfound
  generalize readGroups 8 0 text = front at hfront hfound
  simp only [readBack] at hfound
  split at hfound
  · cases hfound
    assumption
  split at hfound
  · cases hfound
  split at hfound
  · next rest _ =>
    cases hfound
    have hback := readGroups_length (8 - (front.1.1.length + 1)) 0 rest
    exact length_join (by omega)
  · cases hfound

def readIpv6Addr (text : Text) : Option (Ipv6Addr × Text) :=
  (readSegments text).pmap (fun found h => (⟨found.1, h⟩, found.2)) length_readSegments

theorem readIpv6Addr_eq_some_iff {text rest : Text} {addr : Ipv6Addr} :
    readIpv6Addr text = some (addr, rest) ↔ readSegments text = some (addr.segments, rest) := by
  obtain ⟨segments, hlength⟩ := addr
  rw [readIpv6Addr, Option.pmap_eq_some_iff]
  constructor
  · rintro ⟨found, h, hfound, heq⟩
    cases heq
    exact hfound
  · intro hfound
    exact ⟨_, hlength, hfound, rfl⟩

def readIpAddr (text : Text) : Option (IpAddr × Text) :=
  ((readIpv4Addr text).map fun read => (.v4 read.1, read.2)) <|>
    (readIpv6Addr text).map fun read => (.v6 read.1, read.2)

/-- `str::parse::<IpAddr>`. -/
def parse (text : Text) : Option IpAddr :=
  match readIpAddr text with
  | some (addr, []) => some addr
  | _ => none

/-! ## Writing -/

def showIpv4 (addr : Ipv4Addr) : Text :=
  written 10 addr.a.toNat ++ '.' :: (written 10 addr.b.toNat ++ '.' :: (written 10 addr.c.toNat ++
    '.' :: written 10 addr.d.toNat))

/-- The address of four octets that an IPv6 address maps. -/
def Ipv6Addr.toIpv4Mapped (addr : Ipv6Addr) : Option Ipv4Addr :=
  match addr.segments with
  | [0, 0, 0, 0, 0, 0xffff, ab, cd] => some
    ⟨(ab.toNat / 256).toUInt8, (ab.toNat % 256).toUInt8, (cd.toNat / 256).toUInt8, (cd.toNat % 256).toUInt8⟩
  | _ => none

structure Span where
  start : ℕ := 0
  len : ℕ := 0
  deriving DecidableEq, Repr

/-- One turn of the loop for the longest run of zeroes, with the run it is in. -/
def zeroStep (spans : Span × Span) (segment : UInt16 × ℕ) : Span × Span :=
  if segment.1 = 0 then
    let current : Span := ⟨if spans.2.len = 0 then segment.2 else spans.2.start, spans.2.len + 1⟩
    (if spans.1.len < current.len then current else spans.1, current)
  else (spans.1, {})

def zeroes (segments : List UInt16) : Span := (segments.zipIdx.foldl zeroStep ({}, {})).1

def fmtTail (segments : List UInt16) : Text := segments.flatMap fun segment => ':' :: written 16 segment.toNat

/-- `fmt_subslice`. -/
def fmtSubslice : List UInt16 → Text
  | [] => []
  | first :: tail => written 16 first.toNat ++ fmtTail tail

def showIpv6 (addr : Ipv6Addr) : Text :=
  match addr.toIpv4Mapped with
  | some ipv4 => "::ffff:".toList ++ showIpv4 ipv4
  | none =>
    if 1 < (zeroes addr.segments).len then
      fmtSubslice (addr.segments.take (zeroes addr.segments).start) ++ "::".toList ++
        fmtSubslice (addr.segments.drop ((zeroes addr.segments).start + (zeroes addr.segments).len))
    else fmtSubslice addr.segments

/-- `IpAddr::to_string`. -/
def render : IpAddr → Text
  | .v4 addr => showIpv4 addr
  | .v6 addr => showIpv6 addr

example : (parse "2001:DB8:0:0::192.0.2.1".toList).map (fun addr => String.ofList (render addr)) =
    some "2001:db8::c000:201" := by decide

/-! ## Reading what was written -/

theorem ends_nil {radix : ℕ} : Ends radix [] := by
  intro c hc
  cases hc

theorem ends_cons {radix : ℕ} {c : Char} {rest : Text} (h : toDigit radix c = none) : Ends radix (c :: rest) := by
  intro first hfirst
  cases hfirst
  exact h

theorem readOctet_written {octet : UInt8} {rest : Text} (hrest : Ends 10 rest) :
    readNumber 10 3 false 256 (written 10 octet.toNat ++ rest) = some (octet.toNat, rest) := by
  have hlt := octet.toNat_lt
  exact readNumber_written (by omega) (by omega) hlt (by omega) (by omega) hrest

theorem readIpv4Addr_showIpv4 {addr : Ipv4Addr} {rest : Text} (hrest : Ends 10 rest) :
    readIpv4Addr (showIpv4 addr ++ rest) = some (addr, rest) := by
  have hdot (more : Text) : Ends 10 ('.' :: more) := ends_cons (by decide)
  simp [readIpv4Addr, showIpv4, readOctet, readSeparator, readOctet_written (hdot _), readOctet_written hrest]

theorem readDigits_spec {radix maxDigits result count value total : ℕ} {text rest : Text}
    (h : readDigits radix maxDigits result count text = some (value, total, rest)) :
    ∃ front, text = front ++ rest ∧ ∀ c ∈ front, toDigit radix c ≠ none := by
  induction text generalizing result count with
  | nil =>
    simp only [readDigits, Option.some.injEq, Prod.mk.injEq] at h
    exact ⟨[], by simp [← h.2.2], by simp⟩
  | cons c text ih =>
    rw [readDigits] at h
    split at h
    · simp only [Option.some.injEq, Prod.mk.injEq] at h
      exact ⟨[], by simp [← h.2.2], by simp⟩
    · next digit hdigit =>
      split at h
      · cases h
      · obtain ⟨front, rfl, hfront⟩ := ih h
        exact ⟨c :: front, rfl, by simpa [hdigit] using hfront⟩

theorem readIpv4Addr_dot {text : Text} {read : Ipv4Addr × Text} (h : readIpv4Addr text = some read) :
    ∃ front more, text = front ++ '.' :: more ∧ ∀ c ∈ front, toDigit 10 c ≠ none := by
  simp only [readIpv4Addr, Option.bind_eq_some_iff] at h
  obtain ⟨a, ha, b, hb, -⟩ := h
  obtain ⟨front, htext, hfront⟩ : ∃ front, text = front ++ a.2 ∧ ∀ c ∈ front, toDigit 10 c ≠ none := by
    simp only [readOctet, readSeparator, if_true, readNumber] at ha
    split at ha
    · cases ha
    · next hdigits =>
      obtain ⟨front, htext, hfront⟩ := readDigits_spec hdigits
      split_ifs at ha
      cases ha
      exact ⟨front, htext, hfront⟩
  unfold readOctet readSeparator at hb
  rw [if_neg (by omega)] at hb
  split at hb
  · cases hb
  · next c more hmore =>
    split_ifs at hb with hc
    exact ⟨front, more, by rw [htext, hmore, hc], hfront⟩

/-- A text that is at its end or at a colon. -/
def Pauses (rest : Text) : Prop := rest = [] ∨ ∃ more, rest = ':' :: more

theorem Pauses.ends {rest : Text} (h : Pauses rest) : Ends 16 rest := by
  rcases h with rfl | ⟨more, rfl⟩
  · exact ends_nil
  · exact ends_cons (by decide)

theorem readIpv4Addr_none {front rest : Text} (hfront : '.' ∉ front) (hrest : Pauses rest) :
    readIpv4Addr (front ++ rest) = none := by
  by_contra hsome
  obtain ⟨read, hread⟩ := Option.ne_none_iff_exists'.mp hsome
  obtain ⟨digits, more, htext, hdigits⟩ := readIpv4Addr_dot hread
  have hdot : '.' ∉ rest.take 1 := by
    rcases hrest with rfl | ⟨more, rfl⟩ <;> simp
  rcases List.append_eq_append_iff.mp htext with ⟨between, rfl, hbetween⟩ | ⟨between, rfl, hbetween⟩
  · cases between with
    | nil => simp [hbetween] at hdot
    | cons c between =>
      rcases hrest with rfl | ⟨later, rfl⟩
      · cases hbetween
      · obtain ⟨rfl, -⟩ := List.cons.inj hbetween
        exact hdigits ':' (by simp) (by decide)
  · cases between with
    | nil =>
      rw [List.nil_append] at hbetween
      simp [← hbetween] at hdot
    | cons c between =>
      obtain ⟨rfl, -⟩ := List.cons.inj hbetween
      simp at hfront

theorem dot_notMem_written {n : ℕ} : '.' ∉ written 16 n := by
  rw [written, List.mem_map]
  rintro ⟨digit, hdigit, hchar⟩
  have hall : ∀ d < 16, Nat.digitChar d ≠ '.' := by decide
  exact hall digit (digits_lt (by omega) digit hdigit) hchar

theorem readGroup_written {segment : UInt16} {rest : Text} (hrest : Pauses rest) :
    readNumber 16 4 true 65536 (written 16 segment.toNat ++ rest) = some (segment.toNat, rest) := by
  have hlt := segment.toNat_lt
  exact readNumber_written (by omega) (by omega) hlt (by omega) (by omega) hrest.ends

/-- A text that goes on with no group: at its end, or at `::`. -/
def Stops (rest : Text) : Prop := rest = [] ∨ ∃ more, rest = ':' :: ':' :: more

theorem Stops.pauses {rest : Text} (h : Stops rest) : Pauses rest := by
  rcases h with rfl | ⟨more, rfl⟩
  · exact .inl rfl
  · exact .inr ⟨_, rfl⟩

theorem pauses_fmtTail {segments : List UInt16} {rest : Text} (h : Pauses rest) : Pauses (fmtTail segments ++ rest) := by
  cases segments with
  | nil => exact h
  | cons segment segments => exact .inr ⟨_, rfl⟩

theorem readNumber_pause {rest : Text} (h : Pauses rest) : readNumber 16 4 true 65536 rest = none := by
  rcases h with rfl | ⟨more, rfl⟩
  · rfl
  · rw [readNumber, readDigits, show toDigit 16 ':' = none by decide]
    rfl

theorem readGroups_stop {left index : ℕ} {rest : Text} (h : Stops rest) : readGroups left index rest = (([], false), rest) := by
  cases left with
  | zero => rfl
  | succ left =>
    have hpauses : ∀ later, rest = ':' :: later → Pauses later := by
      rintro later rfl
      rcases h with h | ⟨more, h⟩
      · cases h
      · obtain ⟨-, rfl⟩ := List.cons.inj h
        exact .inr ⟨more, rfl⟩
    have haddr : readSeparator ':' index readIpv4Addr rest = none := by
      unfold readSeparator
      split
      · exact @readIpv4Addr_none [] rest (by simp) h.pauses
      · split
        · rfl
        · next c later =>
          split_ifs with hc
          · exact @readIpv4Addr_none [] later (by simp) (hpauses later (by rw [hc]))
          · rfl
    have hgroup : readGroup index rest = none := by
      unfold readGroup readSeparator
      split
      · exact readNumber_pause h.pauses
      · split
        · rfl
        · next c later =>
          split_ifs with hc
          · exact readNumber_pause (hpauses later (by rw [hc]))
          · rfl
    rw [readGroups, haddr, hgroup]
    simp

theorem readGroups_group {left index : ℕ} {segment : UInt16} {text rest : Text} (hrest : Pauses rest)
    (htext : text = if index = 0 then written 16 segment.toNat ++ rest else ':' :: (written 16 segment.toNat ++ rest)) :
    readGroups (left + 1) index text = ((segment :: (readGroups left (index + 1) rest).1.1,
      (readGroups left (index + 1) rest).1.2), (readGroups left (index + 1) rest).2) := by
  have haddr : (if 0 < left then readSeparator ':' index readIpv4Addr text else none) = none := by
    subst htext
    by_cases hindex : index = 0
    · simp [readSeparator, hindex, readIpv4Addr_none dot_notMem_written hrest]
    · simp [readSeparator, hindex, readIpv4Addr_none dot_notMem_written hrest]
  have hgroup : readGroup index text = some (segment.toNat, rest) := by
    subst htext
    by_cases hindex : index = 0
    · simp [readGroup, readSeparator, hindex, readGroup_written hrest]
    · simp [readGroup, readSeparator, hindex, readGroup_written hrest]
  rw [readGroups, haddr, hgroup]
  simp

theorem readGroups_fmtTail {left index : ℕ} {segments : List UInt16} {rest : Text} (hindex : index ≠ 0)
    (hle : segments.length ≤ left) (hrest : Stops rest) :
    readGroups left index (fmtTail segments ++ rest) = ((segments, false), rest) := by
  induction segments generalizing left index with
  | nil => exact readGroups_stop hrest
  | cons segment segments ih =>
    cases left with
    | zero => simp at hle
    | succ left =>
      have hlater := @ih left (index + 1) (by omega) (by simpa using hle)
      have hpauses : Pauses (fmtTail segments ++ rest) := pauses_fmtTail hrest.pauses
      rw [@readGroups_group left index segment _ _ hpauses (by simp [fmtTail, hindex]), hlater]

theorem readGroups_fmtSubslice {left : ℕ} {segments : List UInt16} {rest : Text} (hle : segments.length ≤ left)
    (hrest : Stops rest) : readGroups left 0 (fmtSubslice segments ++ rest) = ((segments, false), rest) := by
  cases segments with
  | nil => exact readGroups_stop hrest
  | cons segment segments =>
    cases left with
    | zero => simp at hle
    | succ left =>
      have hlater := readGroups_fmtTail (show 1 ≠ 0 by omega) (show segments.length ≤ left by simpa using hle) hrest
      have hpauses : Pauses (fmtTail segments ++ rest) := pauses_fmtTail hrest.pauses
      rw [@readGroups_group left 0 segment _ _ hpauses (by simp [fmtSubslice]), hlater]

/-! ## The longest run of zeroes -/

/-- A run of zeroes in the segments. -/
structure Span.Within (span : Span) (segments : List UInt16) : Prop where
  fits : span.start + span.len ≤ segments.length
  zero : ∀ i, span.start ≤ i → i < span.start + span.len → segments[i]? = some 0

theorem Span.Within.append {span : Span} {segments more : List UInt16} (h : span.Within segments) :
    span.Within (segments ++ more) := by
  constructor
  · have hfits := h.fits
    simp only [List.length_append]
    omega
  · intro i hstart hend
    have hfits := h.fits
    rw [List.getElem?_append_left (by omega)]
    exact h.zero i hstart hend

theorem Span.within_empty (segments : List UInt16) : Span.Within {} segments := by
  constructor
  · simp
  · intro i hstart hend
    simp at hend

/-- The longest run so far, and the one that goes on. -/
structure Runs (segments : List UInt16) (spans : Span × Span) : Prop where
  longest : spans.1.Within segments
  current : spans.2.Within segments
  last : spans.2.len ≠ 0 → spans.2.start + spans.2.len = segments.length

theorem Runs.step {segments : List UInt16} {spans : Span × Span} (h : Runs segments spans) (segment : UInt16) :
    Runs (segments ++ [segment]) (zeroStep spans (segment, segments.length)) := by
  rw [zeroStep]
  split
  case isFalse => exact ⟨h.longest.append, Span.within_empty _, by simp⟩
  next hzero =>
  have hend : (if spans.2.len = 0 then segments.length else spans.2.start) + (spans.2.len + 1) = segments.length + 1 := by
    split
    · next hnone => omega
    · next hsome =>
      have hlast := h.last hsome
      omega
  have hcurrent : Span.Within ⟨if spans.2.len = 0 then segments.length else spans.2.start, spans.2.len + 1⟩
      (segments ++ [segment]) := by
    constructor
    · simp only [List.length_append, List.length_cons, List.length_nil]
      omega
    · intro i hstart hlt
      by_cases hi : i = segments.length
      · simp only [hi, List.getElem?_concat_length]
        exact congrArg some hzero
      · have hold : i < segments.length := by
          simp only at hlt
          omega
        rw [List.getElem?_append_left hold]
        simp only at hstart
        split at hstart
        · omega
        · exact h.current.zero i hstart (by have hlast := h.last (by assumption); omega)
  refine ⟨?_, hcurrent, ?_⟩
  · dsimp only
    split
    · exact hcurrent
    · exact h.longest.append
  · intro _
    simpa using hend

theorem within_zeroes (segments : List UInt16) : (zeroes segments).Within segments := by
  suffices h : Runs segments (segments.zipIdx.foldl zeroStep ({}, {})) from h.longest
  induction segments using List.reverseRecOn with
  | nil => exact ⟨Span.within_empty _, Span.within_empty _, by simp⟩
  | append_singleton segments segment ih => simpa [List.zipIdx_append] using ih.step segment

theorem Span.Within.split {span : Span} {segments : List UInt16} (h : span.Within segments) :
    segments = segments.take span.start ++ List.replicate span.len 0 ++ segments.drop (span.start + span.len) := by
  have hrun : (segments.drop span.start).take span.len = List.replicate span.len 0 := by
    have hfits := h.fits
    rw [List.eq_replicate_iff]
    constructor
    · simp only [List.length_take, List.length_drop]
      omega
    · intro segment hsegment
      obtain ⟨i, hi, rfl⟩ := List.mem_iff_getElem.mp hsegment
      simp only [List.length_take, List.length_drop, Nat.lt_min] at hi
      have hzero := h.zero (span.start + i) (by omega) (by omega)
      rw [List.getElem?_eq_some_iff] at hzero
      simpa using hzero.2
  rw [← hrun, ← List.drop_drop, List.append_assoc, List.take_append_drop, List.take_append_drop]

/-! ## Addresses from their texts -/

theorem readSegments_join {front back : List UInt16} {text : Text} {ipv4 : Bool} (hlt : front.length < 8)
    (hback : readGroups (8 - (front.length + 1)) 0 text = ((back, ipv4), [])) :
    readSegments (fmtSubslice front ++ ':' :: ':' :: text) = some (join front back, []) := by
  have hfront : readGroups 8 0 (fmtSubslice front ++ ':' :: ':' :: text) = ((front, false), ':' :: ':' :: text) :=
    readGroups_fmtSubslice (by omega) (.inr ⟨_, rfl⟩)
  rw [readSegments, hfront]
  simp only [readBack, if_neg (show front.length ≠ 8 by omega), Bool.false_eq_true, if_false, hback]

theorem readSegments_whole {segments : List UInt16} (h : segments.length = 8) :
    readSegments (fmtSubslice segments) = some (segments, []) := by
  have hread := @readGroups_fmtSubslice 8 segments [] (by omega) (.inl rfl)
  rw [List.append_nil] at hread
  rw [readSegments, hread]
  simp only [readBack, if_pos h]

theorem readGroups_mapped {addr : Ipv4Addr} :
    readGroups 7 0 ("ffff:".toList ++ showIpv4 addr) = ((0xffff :: addr.segments, true), []) := by
  have hpauses : Pauses (':' :: showIpv4 addr) := .inr ⟨_, rfl⟩
  have hffff : "ffff:".toList ++ showIpv4 addr = written 16 (0xffff : UInt16).toNat ++ ':' :: showIpv4 addr := by
    have hwritten : written 16 (0xffff : UInt16).toNat = ['f', 'f', 'f', 'f'] := by decide
    rw [hwritten]
    rfl
  have haddr : readSeparator ':' 1 readIpv4Addr (':' :: showIpv4 addr) = some (addr, []) := by
    have hread := @readIpv4Addr_showIpv4 addr [] ends_nil
    rw [List.append_nil] at hread
    simp [readSeparator, hread]
  have hlater : readGroups 6 1 (':' :: showIpv4 addr) = ((addr.segments, true), []) := by
    rw [readGroups, haddr]
    rfl
  rw [hffff, @readGroups_group 6 0 0xffff _ _ hpauses (by simp), hlater]

theorem segments_of_toIpv4Mapped {addr : Ipv6Addr} {ipv4 : Ipv4Addr} (h : addr.toIpv4Mapped = some ipv4) :
    addr.segments = join [] (0xffff :: ipv4.segments) := by
  rw [Ipv6Addr.toIpv4Mapped] at h
  split at h
  · next ab cd hsegments =>
    cases h
    have hwhole (n : UInt16) : ((n.toNat / 256).toUInt8.toNat * 256 + (n.toNat % 256).toUInt8.toNat).toUInt16 = n := by
      have hlt := n.toNat_lt
      have hhigh : (n.toNat / 256).toUInt8.toNat = n.toNat / 256 := by
        simp only [Nat.toUInt8_eq, UInt8.toNat_ofNat']
        omega
      have hlow : (n.toNat % 256).toUInt8.toNat = n.toNat % 256 := by
        simp only [Nat.toUInt8_eq, UInt8.toNat_ofNat']
        omega
      rw [hhigh, hlow, Nat.div_add_mod']
      simp
    rw [hsegments, Ipv4Addr.segments, hwhole, hwhole]
    rfl
  · cases h

theorem readIpv6Addr_showIpv6 (addr : Ipv6Addr) : readIpv6Addr (showIpv6 addr) = some (addr, []) := by
  rw [readIpv6Addr_eq_some_iff, showIpv6]
  split
  · next ipv4 hmapped =>
    rw [segments_of_toIpv4Mapped hmapped]
    exact @readSegments_join [] _ _ _ (by simp) readGroups_mapped
  · split
    · next hlong =>
      have hwithin := within_zeroes addr.segments
      have hsplit := hwithin.split
      have hfits := hwithin.fits
      have hlength := addr.length_eq
      generalize zeroes addr.segments = span at hlong hsplit hfits
      generalize hfront : addr.segments.take span.start = front at hsplit
      generalize hback : addr.segments.drop (span.start + span.len) = back at hsplit
      have hfrontLength : front.length = span.start := by
        rw [← hfront, List.length_take]
        omega
      have hbackLength : back.length = 8 - (span.start + span.len) := by rw [← hback, List.length_drop, hlength]
      have hread := @readGroups_fmtSubslice (8 - (front.length + 1)) back [] (by omega) (.inl rfl)
      rw [List.append_nil] at hread
      have hjoin : join front back = addr.segments := by
        rw [join, show 8 - front.length - back.length = span.len by omega]
        exact hsplit.symm
      rw [List.append_assoc, ← hjoin]
      exact readSegments_join (by omega) hread
    · exact readSegments_whole addr.length_eq

theorem readIpv4Addr_fmtSubslice {segments : List UInt16} {rest : Text} (h : Pauses rest) :
    readIpv4Addr (fmtSubslice segments ++ rest) = none := by
  cases segments with
  | nil => exact @readIpv4Addr_none [] rest (by simp) h
  | cons segment segments =>
    rw [fmtSubslice, List.append_assoc]
    exact readIpv4Addr_none dot_notMem_written (pauses_fmtTail h)

theorem readIpv4Addr_showIpv6 (addr : Ipv6Addr) : readIpv4Addr (showIpv6 addr) = none := by
  rw [showIpv6]
  split
  · exact @readIpv4Addr_fmtSubslice [] _ (.inr ⟨_, rfl⟩)
  · split
    · rw [List.append_assoc]
      exact readIpv4Addr_fmtSubslice (.inr ⟨_, rfl⟩)
    · have hread := @readIpv4Addr_fmtSubslice addr.segments [] (.inl rfl)
      rwa [List.append_nil] at hread

theorem parse_render (addr : IpAddr) : parse (render addr) = some addr := by
  cases addr with
  | v4 addr =>
    have hread := @readIpv4Addr_showIpv4 addr [] ends_nil
    rw [List.append_nil] at hread
    simp [parse, render, readIpAddr, hread]
  | v6 addr => simp [parse, render, readIpAddr, readIpv4Addr_showIpv6, readIpv6Addr_showIpv6]

/-! ## Letters of either case -/

/-- `str::to_ascii_lowercase`. -/
def toLowercase (text : Text) : Text := text.map Char.toLower

theorem toLower_of_le {c : Char} (h : 128 ≤ c.toNat) : c.toLower = c := by
  delta Char.toLower
  rw [dif_neg]
  rintro ⟨-, hle⟩
  have hle : c.toNat ≤ 90 := hle
  omega

theorem toLower_induction {P : Char → Char → Prop} (hascii : ∀ n < 128, P (Char.ofNat n) (Char.ofNat n).toLower)
    (hother : ∀ c, c.toLower = c → P c c) (c : Char) : P c c.toLower := by
  by_cases h : c.toNat < 128
  · have hc := hascii c.toNat h
    rwa [Char.ofNat_toNat] at hc
  · have hsame := toLower_of_le (c := c) (by omega)
    rw [hsame]
    exact hother c hsame

theorem digitValue_toLower (c : Char) : digitValue c.toLower = digitValue c :=
  toLower_induction (P := fun c lower => digitValue lower = digitValue c) (by decide +kernel) (fun _ _ => rfl) c

@[simp] theorem toDigit_toLower (radix : ℕ) (c : Char) : toDigit radix c.toLower = toDigit radix c := by
  rw [toDigit, digitValue_toLower, toDigit]

/-- Some characters that are no letters. -/
def marks : List Char := "0.:[]/?#@".toList

theorem toLower_eq_iff {mark : Char} (h : mark ∈ marks) (c : Char) : c.toLower = mark ↔ c = mark := by
  have hlowers : marks.all (fun mark =>
      (List.range 128).all fun n => ((Char.ofNat n).toLower = mark) = (Char.ofNat n = mark)) = true := by decide +kernel
  have hall : ∀ mark ∈ marks, ∀ n < 128, (Char.ofNat n).toLower = mark ↔ Char.ofNat n = mark := by
    simpa only [List.all_eq_true, decide_eq_true_eq, eq_iff_iff, List.mem_range] using hlowers
  exact toLower_induction (P := fun c lower => lower = mark ↔ c = mark) (hall mark h) (fun _ _ => Iff.rfl) c

/-- What is left of the text is in lower case too. -/
def Lowers (read : Text → Option (α × Text)) : Prop :=
  ∀ text, read (toLowercase text) = (read text).map fun found => (found.1, toLowercase found.2)

theorem readDigits_toLowercase (radix maxDigits result count : ℕ) (text : Text) :
    readDigits radix maxDigits result count (toLowercase text) =
      (readDigits radix maxDigits result count text).map fun found => (found.1, found.2.1, toLowercase found.2.2) := by
  induction text generalizing result count with
  | nil => rfl
  | cons c text ih =>
    rw [toLowercase, List.map_cons, readDigits, toDigit_toLower, readDigits]
    split
    · rfl
    · split
      · rfl
      · exact ih _ _

theorem lowers_readNumber (radix maxDigits : ℕ) (allowZeroPrefix : Bool) (bound : ℕ) :
    Lowers (readNumber radix maxDigits allowZeroPrefix bound) := by
  intro text
  have hhead : (toLowercase text).head? = some '0' ↔ text.head? = some '0' := by
    cases text with
    | nil => rfl
    | cons c text => simpa [toLowercase] using toLower_eq_iff (by decide) c
  simp only [readNumber, readDigits_toLowercase, hhead]
  cases readDigits radix maxDigits 0 0 text with
  | none => rfl
  | some found =>
    simp only [Option.map_some]
    split_ifs <;> rfl

theorem Lowers.readSeparator {read : Text → Option (α × Text)} (h : Lowers read) {separator : Char}
    (hseparator : separator ∈ marks) (index : ℕ) : Lowers (readSeparator separator index read) := by
  intro text
  by_cases hindex : index = 0
  · simpa [IpAddresses.readSeparator, hindex] using h text
  · cases text with
    | nil => simp [IpAddresses.readSeparator, hindex, toLowercase]
    | cons c text =>
      have hlater := h text
      by_cases hc : c = separator
      · simpa [IpAddresses.readSeparator, hindex, toLowercase, hc, (toLower_eq_iff hseparator separator).mpr rfl] using hlater
      · have hne : c.toLower ≠ separator := fun heq => hc ((toLower_eq_iff hseparator c).mp heq)
        simp [IpAddresses.readSeparator, hindex, toLowercase, hc, hne]

theorem lowers_readOctet (index : ℕ) : Lowers (readOctet index) := (lowers_readNumber 10 3 false 256).readSeparator (by decide) index

theorem lowers_readGroup (index : ℕ) : Lowers (readGroup index) := (lowers_readNumber 16 4 true 65536).readSeparator (by decide) index

theorem lowers_readIpv4Addr : Lowers readIpv4Addr := by
  intro text
  simp only [readIpv4Addr, lowers_readOctet _ _, Option.bind_map, Option.map_bind, Option.map_map, Function.comp_def]

theorem readGroups_toLowercase (left index : ℕ) (text : Text) : readGroups left index (toLowercase text) =
    ((readGroups left index text).1, toLowercase (readGroups left index text).2) := by
  induction left generalizing index text with
  | zero => rfl
  | succ left ih =>
    have haddr : (if 0 < left then readSeparator ':' index readIpv4Addr (toLowercase text) else none) =
        (if 0 < left then readSeparator ':' index readIpv4Addr text else none).map fun found =>
          (found.1, toLowercase found.2) := by
      split
      · exact lowers_readIpv4Addr.readSeparator (by decide) index text
      · rfl
    rw [readGroups, haddr, readGroups]
    cases if 0 < left then readSeparator ':' index readIpv4Addr text else none with
    | some found => rfl
    | none =>
      simp only [Option.map_none, lowers_readGroup index text]
      cases readGroup index text with
      | none => rfl
      | some found => simp [ih]

theorem colons_of_toLowercase {text rest : Text} (h : toLowercase text = ':' :: ':' :: rest) :
    ∃ rest, text = ':' :: ':' :: rest := by
  rcases text with _ | ⟨c, _ | ⟨d, text⟩⟩
  · cases h
  · simp [toLowercase] at h
  · simp only [toLowercase, List.map_cons, List.cons.injEq, toLower_eq_iff (show ':' ∈ marks by decide)] at h
    exact ⟨text, by rw [h.1, h.2.1]⟩

theorem readBack_toLowercase (front : List UInt16) (ipv4 : Bool) (text : Text) : readBack front ipv4 (toLowercase text) =
    (readBack front ipv4 text).map fun found => (found.1, toLowercase found.2) := by
  simp only [readBack]
  split_ifs
  · rfl
  · rfl
  by_cases hcolons : ∃ rest, text = ':' :: ':' :: rest
  · obtain ⟨rest, rfl⟩ := hcolons
    have hlower : toLowercase (':' :: ':' :: rest) = ':' :: ':' :: toLowercase rest := rfl
    simp [hlower, readGroups_toLowercase]
  · split
    · next hlower => exact absurd (colons_of_toLowercase hlower) hcolons
    · split
      · exact absurd ⟨_, rfl⟩ hcolons
      · rfl

theorem readSegments_toLowercase (text : Text) : readSegments (toLowercase text) =
    (readSegments text).map fun found => (found.1, toLowercase found.2) := by
  simp only [readSegments, readGroups_toLowercase]
  exact readBack_toLowercase _ _ _

theorem lowers_readIpv6Addr : Lowers readIpv6Addr := by
  intro text
  apply Option.ext
  rintro ⟨addr, rest⟩
  rw [readIpv6Addr_eq_some_iff, readSegments_toLowercase]
  simp only [Option.map_eq_some_iff, Prod.mk.injEq]
  constructor
  · rintro ⟨⟨segments, left⟩, hfound, rfl, rfl⟩
    exact ⟨⟨addr, left⟩, readIpv6Addr_eq_some_iff.mpr hfound, rfl, rfl⟩
  · rintro ⟨⟨other, left⟩, hfound, rfl, rfl⟩
    exact ⟨⟨other.segments, left⟩, readIpv6Addr_eq_some_iff.mp hfound, rfl, rfl⟩

theorem parse_toLowercase (text : Text) : parse (toLowercase text) = parse text := by
  have hread : readIpAddr (toLowercase text) = (readIpAddr text).map fun found => (found.1, toLowercase found.2) := by
    rw [readIpAddr, lowers_readIpv4Addr, lowers_readIpv6Addr, readIpAddr]
    cases readIpv4Addr text with
    | some found => rfl
    | none => cases readIpv6Addr text <;> rfl
  rw [parse, hread, parse]
  cases readIpAddr text with
  | none => rfl
  | some found =>
    obtain ⟨addr, rest⟩ := found
    cases rest <;> rfl

theorem toLowercase_toLowercase (text : Text) : toLowercase (toLowercase text) = toLowercase text := by
  simp only [toLowercase, List.map_map]
  apply List.map_congr_left
  intro c _
  exact toLower_induction (P := fun _ lower => lower.toLower = lower) (by decide +kernel) (fun _ h => h) c

theorem mem_toLowercase {mark : Char} (h : mark ∈ marks) {text : Text} :
    mark ∈ toLowercase text ↔ mark ∈ text := by
  simp [toLowercase, toLower_eq_iff h]

theorem colon_mem_showIpv6 (addr : Ipv6Addr) : ':' ∈ showIpv6 addr := by
  rw [showIpv6]
  split
  · simp
  · split
    · simp
    · have hlength := addr.length_eq
      generalize addr.segments = segments at hlength
      rcases segments with _ | ⟨first, _ | ⟨second, segments⟩⟩
      · cases hlength
      · cases hlength
      · simp [fmtSubslice, fmtTail]

end Ngnet.IpAddresses
