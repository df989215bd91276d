import Ngnet.IpAddresses

/-!
# Origins

The crate `ngnet-util`, `origin.rs`: the server that the URI of a request names. What the crate `http` makes of a text
is a parameter, the class `UriCrate`: which texts it takes for a host as they stand, which within brackets, and what
it reads of a whole URI.
-/

namespace Ngnet.Origins
open IpAddresses

/-! ## URIs -/

/-- What `from_uri` asks of a URI: the scheme, the host and the text of its port, if one is written. -/
structure Uri where
  scheme : Option Text
  host : Option Text
  port : Option Text
  deriving DecidableEq, Repr

/-- One turn of the loop of `u16::from_str`. -/
def parseDigit (n : ℕ) (c : Char) : Option ℕ :=
  (toDigit 10 c).bind fun digit => if n * 10 + digit < 65536 then some (n * 10 + digit) else none

/-- `u16::from_str`. -/
def parseU16 (text : Text) : Option UInt16 :=
  let digits := if text.head? = some '+' then text.tail else text
  if digits = [] then none else (digits.foldlM parseDigit 0).map Nat.toUInt16

namespace Uri

/-- `Uri::port_u16`. -/
def portU16 (uri : Uri) : Option UInt16 := uri.port.bind parseU16

end Uri

def http : Text := "http".toList

/-! ## Origins -/

structure Origin where
  host : Text
  port : UInt16
  deriving DecidableEq, Repr

inductive Error
  | uri (detail : String)
  deriving DecidableEq, Repr

def httpDefaultPort : UInt16 := 80

/-- The host without the brackets around it. -/
def unbracketed (host : Text) : Text :=
  match host with
  | '[' :: rest => if rest.getLast? = some ']' then rest.dropLast else host
  | _ => host

def normaliseHost (host : Text) : Text :=
  match parse (unbracketed host) with
  | some addr => render addr
  | none => toLowercase (unbracketed host)

def Origin.fromUri (uri : Uri) : Except Error Origin :=
  match uri.scheme with
  | none => .error (.uri "request URI has no scheme; an absolute `http://` URI is required")
  | some scheme =>
    if scheme ≠ http then
      .error (.uri ("unsupported URI scheme `" ++ String.ofList scheme ++ "`; this client speaks cleartext HTTP/2 only, " ++
        "and attempting `" ++ String.ofList scheme ++ "` in cleartext would be a silent downgrade"))
    else match uri.host.filter (· ≠ []) with
      | none => .error (.uri "request URI has no host; an absolute `http://` URI is required")
      | some host => .ok ⟨normaliseHost host, uri.portU16.getD httpDefaultPort⟩

/-- `Origin`'s `Display`. -/
def Origin.display (origin : Origin) : Text :=
  if ':' ∈ origin.host then '[' :: (origin.host ++ ']' :: ':' :: written 10 origin.port.toNat)
  else origin.host ++ ':' :: written 10 origin.port.toNat

/-! ## What is asked of an origin -/

/-- The address that a host writes. -/
def address (host : Text) : Option IpAddr := parse (unbracketed host)

/-- The same address, or the same name up to the case of its letters. -/
def SameHost (host other : Text) : Prop :=
  match address host, address other with
  | some addr, some otherAddr => addr = otherAddr
  | none, none => toLowercase host = toLowercase other
  | _, _ => False

/-- The port that is written, or 80; none if it is no number of 16 bits. -/
def effectivePort (uri : Uri) : Option UInt16 :=
  match uri.port with
  | none => some 80
  | some text => parseU16 text

def SameServer (uri other : Uri) : Prop :=
  ∃ host otherHost, uri.host = some host ∧ other.host = some otherHost ∧ SameHost host otherHost ∧
    effectivePort uri = effectivePort other

/-- What the crate `http` takes for a host, as it stands and within brackets, and what it reads of a whole URI. -/
class UriCrate where
  isName : Text → Bool
  isLiteral : Text → Bool
  parse : Text → Option Uri

def delimiters : Text := "[]/?#@".toList

section Crate
variable [UriCrate]

/-- Names and literals have no delimiters, and a name has no colon; their letters are of either case, and addresses are
among them. A URI of a host and a port is read as it is written. -/
structure Lawful : Prop where
  name : ∀ text, UriCrate.isName text = true → text ≠ [] ∧ ':' ∉ text ∧ ∀ c ∈ delimiters, c ∉ text
  literal : ∀ text, UriCrate.isLiteral text = true → ∀ c ∈ delimiters, c ∉ text
  nameLower : ∀ text, UriCrate.isName (toLowercase text) = UriCrate.isName text
  literalLower : ∀ text, UriCrate.isLiteral (toLowercase text) = UriCrate.isLiteral text
  ipv4 : ∀ addr, UriCrate.isName (showIpv4 addr) = true
  ipv6 : ∀ addr, UriCrate.isLiteral (showIpv6 addr) = true
  readsName : ∀ text (port : UInt16), UriCrate.isName text = true →
    UriCrate.parse ("http://".toList ++ (text ++ ':' :: written 10 port.toNat) ++ ['/']) =
      some ⟨some http, some text, some (written 10 port.toNat)⟩
  readsLiteral : ∀ text (port : UInt16), UriCrate.isLiteral text = true →
    UriCrate.parse ("http://".toList ++ ('[' :: (text ++ ']' :: ':' :: written 10 port.toNat)) ++ ['/']) =
      some ⟨some http, some ('[' :: (text ++ [']'])), some (written 10 port.toNat)⟩
  readsOther : ∀ text (port : UInt16) uri, ':' ∉ text → (∀ c ∈ delimiters, c ∉ text) → UriCrate.isName text = false →
    UriCrate.parse ("http://".toList ++ (text ++ ':' :: written 10 port.toNat) ++ ['/']) = some uri → uri.host = some []

/-- A host stands in the URI as it is, or within brackets. -/
def IsHost (host : Text) : Prop :=
  UriCrate.isName host = true ∨ ∃ text, UriCrate.isLiteral text = true ∧ host = '[' :: (text ++ [']'])

def IsUri (uri : Uri) : Prop := ∀ host, uri.host = some host → host = [] ∨ IsHost host

/-- The origin of the URI that an origin displays is the origin. -/
def Returns (uri : Uri) : Prop := ∀ origin, Origin.fromUri uri = .ok origin →
  ∃ again, UriCrate.parse ("http://".toList ++ origin.display ++ ['/']) = some again ∧ Origin.fromUri again = .ok origin

/-- A port that is no number of 16 bits is refused. -/
def Refuses (uri : Uri) : Prop := ∀ text, uri.port = some text → parseU16 text = none →
  ∃ error, Origin.fromUri uri = .error error

/-- What the origins of two URIs should tell of them. -/
structure Faithful (uri other : Uri) : Prop where
  equal : ∀ origin otherOrigin, Origin.fromUri uri = .ok origin → Origin.fromUri other = .ok otherOrigin →
    (origin = otherOrigin ↔ SameServer uri other)
  returns : Returns uri
  otherReturns : Returns other
  refuses : Refuses uri
  otherRefuses : Refuses other

/-- A URI with a scheme and a host that are not refused. -/
structure Addressed (uri : Uri) (host : Text) : Prop where
  cleartext : uri.scheme = some http
  named : uri.host = some host
  ne_nil : host ≠ []

/-- The port is not written or is a number of 16 bits, and what is written in brackets is an address, has a colon, or is
a name by itself. -/
structure Plain (uri : Uri) (host : Text) : Prop where
  portRead : ∀ text, uri.port = some text → parseU16 text ≠ none
  nameInside : address host = none → ':' ∉ unbracketed host → UriCrate.isName (unbracketed host) = true

end Crate

/-- One host is a name, and the other the same name within brackets. -/
structure Collide (host other : Text) : Prop where
  noAddress : address host = none
  brackets : host.head? = some '[' ↔ other.head? ≠ some '['
  inside : toLowercase (unbracketed host) = toLowercase (unbracketed other)

/-! ## Ports -/

theorem foldl_ge (values : List ℕ) (n : ℕ) : n ≤ values.foldl (fun result digit => result * 10 + digit) n := by
  induction values generalizing n with
  | nil => exact Nat.le_refl n
  | cons digit values ih =>
    have hlater := ih (n * 10 + digit)
    rw [List.foldl_cons]
    omega

theorem foldlM_parseDigit {values : List ℕ} (hvalues : ∀ digit ∈ values, digit < 10) {n : ℕ}
    (hlt : values.foldl (fun result digit => result * 10 + digit) n < 65536) :
    (values.map Nat.digitChar).foldlM parseDigit n = some (values.foldl (fun result digit => result * 10 + digit) n) := by
  induction values generalizing n with
  | nil => rfl
  | cons digit values ih =>
    have hfits : n * 10 + digit < 65536 := Nat.lt_of_le_of_lt (foldl_ge values _) hlt
    have hdigit := toDigit_digitChar (show 10 ≤ 16 by omega) (hvalues digit (by simp))
    have hlater := ih (fun other hother => hvalues other (by simp [hother])) hlt
    simp [parseDigit, hdigit, hfits, hlater]

theorem parseU16_written (port : UInt16) : parseU16 (written 10 port.toNat) = some port := by
  have hlt := port.toNat_lt
  have hdigits : ∀ digit ∈ digits 10 5 port.toNat, digit < 10 := digits_lt (by omega)
  have hvalue := @digits_value 10 5 port.toNat (by omega)
  have hne : written 10 port.toNat ≠ [] := by
    rw [written, digits]
    split <;> simp
  have hplus : (written 10 port.toNat).head? ≠ some '+' := by
    intro hhead
    obtain ⟨digit, hdigit, hchar⟩ := List.mem_map.mp (List.mem_of_head? hhead)
    have hall : ∀ d < 10, Nat.digitChar d ≠ '+' := by decide
    exact hall digit (hdigits digit hdigit) hchar
  have hfold := foldlM_parseDigit hdigits (n := 0) (by rw [hvalue]; exact hlt)
  rw [hvalue, ← written] at hfold
  simp only [parseU16, if_neg hplus, if_neg hne, hfold, Option.map_some]
  simp

/-! ## Hosts -/

variable {host : Text}

theorem unbracketed_of_notMem (h : '[' ∉ host) : unbracketed host = host := by
  unfold unbracketed
  split
  · simp at h
  · rfl

@[simp] theorem unbracketed_brackets (text : Text) : unbracketed ('[' :: (text ++ [']'])) = text := by
  simp [unbracketed]

theorem normaliseHost_of_address {addr : IpAddr} (h : address host = some addr) :
    normaliseHost host = render addr := by
  rw [address] at h
  simp only [normaliseHost, h]

theorem normaliseHost_of_name (h : address host = none) :
    normaliseHost host = toLowercase (unbracketed host) := by
  rw [address] at h
  simp only [normaliseHost, h]

theorem parse_normaliseHost (host : Text) : parse (normaliseHost host) = address host := by
  cases haddress : address host with
  | some addr => rw [normaliseHost_of_address haddress, parse_render]
  | none =>
    rw [normaliseHost_of_name haddress, parse_toLowercase]
    exact haddress

theorem normaliseHost_eq_iff {other : Text} : normaliseHost host = normaliseHost other ↔
    address host = address other ∧ (address host = none → toLowercase (unbracketed host) = toLowercase (unbracketed other)) := by
  constructor
  · intro heq
    have haddress : address host = address other := by rw [← parse_normaliseHost, heq, parse_normaliseHost]
    refine ⟨haddress, fun hnone => ?_⟩
    rw [normaliseHost_of_name hnone, normaliseHost_of_name (haddress ▸ hnone)] at heq
    exact heq
  · rintro ⟨haddress, hname⟩
    cases hhost : address host with
    | some addr => rw [normaliseHost_of_address hhost, normaliseHost_of_address (haddress ▸ hhost)]
    | none => rw [normaliseHost_of_name hhost, normaliseHost_of_name (haddress ▸ hhost), hname hhost]

theorem sameHost_iff {other : Text} : SameHost host other ↔
    address host = address other ∧ (address host = none → toLowercase host = toLowercase other) := by
  rw [SameHost]
  cases address host <;> cases address other <;> simp

section Crate
variable [UriCrate]

theorem unbracketed_of_isName (laws : Lawful) {text : Text} (h : UriCrate.isName text = true) : unbracketed text = text :=
  unbracketed_of_notMem ((laws.name text h).2.2 '[' (by decide))

variable {host : Text}

theorem IsHost.cases (laws : Lawful) (h : IsHost host) :
    (host.head? ≠ some '[' ∧ unbracketed host = host) ∨ (host.head? = some '[' ∧ host = '[' :: (unbracketed host ++ [']'])) := by
  rcases h with hname | ⟨text, hliteral, rfl⟩
  · refine .inl ⟨fun hhead => ?_, unbracketed_of_isName laws hname⟩
    exact (laws.name host hname).2.2 '[' (by decide) (List.mem_of_head? hhead)
  · exact .inr ⟨rfl, by simp⟩

omit [UriCrate] in
theorem toLowercase_brackets (text : Text) : toLowercase ('[' :: (text ++ [']'])) = '[' :: (toLowercase text ++ [']']) := by
  simp only [toLowercase, List.map_cons, List.map_append, List.map_nil]
  rfl

variable {other : Text}

omit [UriCrate] in
theorem head?_of_toLowercase (h : toLowercase host = toLowercase other) (hopen : other.head? = some '[') :
    host.head? = some '[' := by
  obtain ⟨rest, rfl⟩ := List.head?_eq_some_iff.mp hopen
  cases host with
  | nil => cases h
  | cons c host =>
    simp only [toLowercase, List.map_cons, List.cons.injEq] at h
    have hc : c.toLower = '[' := h.1
    rw [(toLower_eq_iff (by decide) c).mp hc, List.head?_cons]

theorem inside_faithful (laws : Lawful) (h : IsHost host) (hother : IsHost other)
    (hnone : address host = none) :
    ((toLowercase (unbracketed host) = toLowercase (unbracketed other)) ↔ toLowercase host = toLowercase other) ↔
      ¬ Collide host other := by
  have hcollide (hbrackets : host.head? = some '[' ↔ other.head? ≠ some '[') : Collide host other ↔
      toLowercase (unbracketed host) = toLowercase (unbracketed other) :=
    ⟨fun hcollide => hcollide.inside, fun hinside => ⟨hnone, hbrackets, hinside⟩⟩
  rcases h.cases laws with ⟨hplain, hself⟩ | ⟨hopen, hself⟩
  · rcases hother.cases laws with ⟨hplain', hself'⟩ | ⟨hopen', hself'⟩
    · have hapart : ¬ Collide host other := fun hcollide => hplain (hcollide.brackets.mpr hplain')
      simp [hself, hself', hapart]
    · have hne : toLowercase host ≠ toLowercase other := fun heq => hplain (head?_of_toLowercase heq hopen')
      rw [hcollide ⟨fun hopen => absurd hopen hplain, fun hne => absurd hopen' hne⟩]
      simp [hne]
  · rcases hother.cases laws with ⟨hplain', hself'⟩ | ⟨hopen', hself'⟩
    · have hne : toLowercase host ≠ toLowercase other := fun heq => hplain' (head?_of_toLowercase heq.symm hopen)
      rw [hcollide ⟨fun _ => hplain', fun _ => hopen⟩]
      simp [hne]
    · have hapart : ¬ Collide host other := fun hcollide => hcollide.brackets.mp hopen hopen'
      have hlower : toLowercase host = toLowercase other ↔
          toLowercase (unbracketed host) = toLowercase (unbracketed other) := by
        rw [hself, hself', toLowercase_brackets, toLowercase_brackets, unbracketed_brackets, unbracketed_brackets]
        simp
      simp [hlower, hapart]

/-- Hosts that are told apart are not the same, and hosts that are not told apart are the same, but for a name and the
same name within brackets. -/
theorem normaliseHost_faithful (laws : Lawful) (h : IsHost host) (hother : IsHost other) :
    (normaliseHost host = normaliseHost other ↔ SameHost host other) ↔ ¬ Collide host other := by
  rw [normaliseHost_eq_iff, sameHost_iff]
  by_cases haddress : address host = address other
  · cases hnone : address host with
    | some addr =>
      have hapart : ¬ Collide host other := fun hcollide => by
        rw [hcollide.noAddress] at hnone
        cases hnone
      simp [← haddress, hnone, hapart]
    | none =>
      rw [← inside_faithful laws h hother hnone]
      simp [← haddress, hnone]
  · have hapart : ¬ Collide host other := by
      rintro ⟨-, -, hinside⟩
      apply haddress
      have hparse := congrArg parse hinside
      rwa [parse_toLowercase, parse_toLowercase] at hparse
    simp [haddress, hapart]

/-! ## Origins of URIs -/

variable {uri : Uri}

omit [UriCrate] in
theorem fromUri_eq_ok_iff {origin : Origin} : Origin.fromUri uri = .ok origin ↔
    ∃ host, Addressed uri host ∧ origin = ⟨normaliseHost host, uri.portU16.getD httpDefaultPort⟩ := by
  rw [Origin.fromUri]
  constructor
  · intro h
    split at h
    · cases h
    next scheme hscheme =>
    split at h
    · cases h
    next hcleartext =>
    split at h
    · cases h
    next host hhost =>
    cases h
    obtain ⟨hnamed, hne⟩ := Option.filter_eq_some_iff.mp hhost
    exact ⟨host, ⟨by simpa [hscheme] using hcleartext, hnamed, by simpa using hne⟩, rfl⟩
  · rintro ⟨host, ⟨hscheme, hhost, hne⟩, rfl⟩
    simp [hscheme, hhost, hne, Option.filter]

omit [UriCrate] in
theorem refuses_iff :
    Refuses uri ↔ ∀ host, Addressed uri host → ∀ text, uri.port = some text → parseU16 text ≠ none := by
  constructor
  · intro hrefuses host haddressed text hport hnone
    obtain ⟨error, herror⟩ := hrefuses text hport hnone
    have hok := fromUri_eq_ok_iff.mpr ⟨host, haddressed, rfl⟩
    rw [herror] at hok
    cases hok
  · intro hports text hport hnone
    cases horigin : Origin.fromUri uri with
    | error error => exact ⟨error, rfl⟩
    | ok origin =>
      obtain ⟨host, haddressed, -⟩ := fromUri_eq_ok_iff.mp horigin
      exact absurd hnone (hports host haddressed text hport)

omit [UriCrate] in
theorem effectivePort_of_read (h : ∀ text, uri.port = some text → parseU16 text ≠ none) :
    effectivePort uri = some (uri.portU16.getD httpDefaultPort) := by
  rw [effectivePort, Uri.portU16]
  cases hport : uri.port with
  | none => rfl
  | some text =>
    cases hread : parseU16 text with
    | none => exact absurd hread (h text hport)
    | some port => simp [hread]

omit [UriCrate] in
theorem normaliseHost_again {again : Text} (h : unbracketed again = normaliseHost host) :
    normaliseHost again = normaliseHost host := by
  have haddress : address again = address host := by rw [address, h, parse_normaliseHost]
  cases hhost : address host with
  | some addr => rw [normaliseHost_of_address (haddress.trans hhost), normaliseHost_of_address hhost]
  | none =>
    rw [normaliseHost_of_name (haddress.trans hhost), h, normaliseHost_of_name hhost, toLowercase_toLowercase]

omit [UriCrate] in
theorem fromUri_read {again : Text} {port : UInt16} (hne : again ≠ []) (h : unbracketed again = normaliseHost host) :
    Origin.fromUri ⟨some http, some again, some (written 10 port.toNat)⟩ = .ok ⟨normaliseHost host, port⟩ := by
  rw [fromUri_eq_ok_iff]
  refine ⟨again, ⟨rfl, rfl, hne⟩, ?_⟩
  simp [normaliseHost_again h, Uri.portU16, parseU16_written]

theorem isLiteral_unbracketed (laws : Lawful) (h : IsHost host) (hcolon : ':' ∈ unbracketed host) :
    UriCrate.isLiteral (unbracketed host) = true := by
  rcases h with hname | ⟨text, hliteral, rfl⟩
  · rw [unbracketed_of_isName laws hname] at hcolon
    exact absurd hcolon (laws.name host hname).2.1
  · simpa using hliteral

theorem delimiters_unbracketed (laws : Lawful) (h : IsHost host) :
    ∀ c ∈ delimiters, c ∉ toLowercase (unbracketed host) := by
  have hmarks : ∀ c ∈ delimiters, c ∈ marks := by
    simpa using show delimiters.all (· ∈ marks) = true by decide
  intro c hc
  rw [mem_toLowercase (hmarks c hc)]
  rcases h with hname | ⟨text, hliteral, rfl⟩
  · rw [unbracketed_of_isName laws hname]
    exact (laws.name host hname).2.2 c hc
  · rw [unbracketed_brackets]
    exact laws.literal text hliteral c hc

theorem isLiteral_normaliseHost (laws : Lawful) (h : IsHost host) (hcolon : ':' ∈ normaliseHost host) :
    UriCrate.isLiteral (normaliseHost host) = true := by
  cases haddress : address host with
  | none =>
    rw [normaliseHost_of_name haddress] at hcolon ⊢
    rw [laws.literalLower]
    exact isLiteral_unbracketed laws h ((mem_toLowercase (by decide)).mp hcolon)
  | some addr =>
    rw [normaliseHost_of_address haddress] at hcolon ⊢
    cases addr with
    | v4 addr => exact absurd hcolon (laws.name _ (laws.ipv4 addr)).2.1
    | v6 addr => exact laws.ipv6 addr

theorem isName_normaliseHost (laws : Lawful) (hcolon : ':' ∉ normaliseHost host) :
    UriCrate.isName (normaliseHost host) = true ↔
      (address host = none → ':' ∉ unbracketed host → UriCrate.isName (unbracketed host) = true) := by
  cases haddress : address host with
  | none =>
    rw [normaliseHost_of_name haddress, mem_toLowercase (by decide)] at hcolon
    rw [normaliseHost_of_name haddress, laws.nameLower]
    simp [hcolon]
  | some addr =>
    rw [normaliseHost_of_address haddress] at hcolon ⊢
    cases addr with
    | v4 addr =>
      have hname : UriCrate.isName (render (.v4 addr)) = true := laws.ipv4 addr
      simp [hname]
    | v6 addr => exact absurd (colon_mem_showIpv6 addr) hcolon

theorem returns_iff (laws : Lawful) (huri : IsUri uri) : Returns uri ↔ ∀ host, Addressed uri host →
    address host = none → ':' ∉ unbracketed host → UriCrate.isName (unbracketed host) = true := by
  have hhost (host : Text) (haddressed : Addressed uri host) : IsHost host :=
    (huri host haddressed.named).resolve_left haddressed.ne_nil
  constructor
  · intro hreturns host haddressed
    obtain ⟨again, hread, hagain⟩ := hreturns _ (fromUri_eq_ok_iff.mpr ⟨host, haddressed, rfl⟩)
    by_cases hcolon : ':' ∈ normaliseHost host
    · intro hnone hinside
      rw [normaliseHost_of_name hnone, mem_toLowercase (by decide)] at hcolon
      exact absurd hcolon hinside
    · rw [← isName_normaliseHost laws hcolon]
      by_contra hname
      have hnone : address host = none := by
        by_contra hsome
        exact hname ((isName_normaliseHost laws hcolon).mpr fun hnone => absurd hnone hsome)
      have hplain : ∀ c ∈ delimiters, c ∉ normaliseHost host := by
        rw [normaliseHost_of_name hnone]
        exact delimiters_unbracketed laws (hhost host haddressed)
      simp only [Origin.display, if_neg hcolon] at hread
      have hempty := laws.readsOther _ _ _ hcolon hplain (by simpa using hname) hread
      obtain ⟨other, hother, -⟩ := fromUri_eq_ok_iff.mp hagain
      exact hother.ne_nil (Option.some.inj (hother.named.symm.trans hempty))
  · intro hinside origin horigin
    obtain ⟨host, haddressed, rfl⟩ := fromUri_eq_ok_iff.mp horigin
    rw [Origin.display]
    split
    · next hcolon =>
      have hliteral := isLiteral_normaliseHost laws (hhost host haddressed) hcolon
      exact ⟨_, laws.readsLiteral _ _ hliteral, fromUri_read (by simp) (by simp)⟩
    · next hcolon =>
      have hname := (isName_normaliseHost laws hcolon).mpr (hinside host haddressed)
      exact ⟨_, laws.readsName _ _ hname, fromUri_read (laws.name _ hname).1 (unbracketed_of_isName laws hname)⟩

omit [UriCrate] in
theorem sameServer_iff {other : Uri} {otherHost : Text} (h : Addressed uri host) (hother : Addressed other otherHost) :
    SameServer uri other ↔ SameHost host otherHost ∧ effectivePort uri = effectivePort other := by
  rw [SameServer, h.named, hother.named]
  simp

theorem equal_iff (laws : Lawful) {other : Uri} {otherHost : Text} (huri : IsUri uri) (hother : IsUri other)
    (h : Addressed uri host) (hport : ∀ text, uri.port = some text → parseU16 text ≠ none)
    (h' : Addressed other otherHost) (hport' : ∀ text, other.port = some text → parseU16 text ≠ none) :
    ((⟨normaliseHost host, uri.portU16.getD httpDefaultPort⟩ : Origin) =
        ⟨normaliseHost otherHost, other.portU16.getD httpDefaultPort⟩ ↔ SameServer uri other) ↔
      (effectivePort uri = effectivePort other → ¬ Collide host otherHost) := by
  have hhost : IsHost host := (huri host h.named).resolve_left h.ne_nil
  have hhost' : IsHost otherHost := (hother otherHost h'.named).resolve_left h'.ne_nil
  rw [sameServer_iff h h', ← normaliseHost_faithful laws hhost hhost', effectivePort_of_read hport,
    effectivePort_of_read hport', Origin.mk.injEq]
  by_cases hports : uri.portU16.getD httpDefaultPort = other.portU16.getD httpDefaultPort
  · simp [hports]
  · simp [hports]

/-- Origins tell servers apart, and come back from their display, exactly where each URI that is not refused for its
scheme or host writes no port or a number of 16 bits, where what it writes in brackets is an address, has a colon or is
a name, and where no host is the other in brackets. -/
theorem faithful_iff (laws : Lawful) {uri other : Uri} (huri : IsUri uri) (hother : IsUri other) :
    Faithful uri other ↔ (∀ host, Addressed uri host → Plain uri host) ∧ (∀ host, Addressed other host → Plain other host) ∧
      ∀ host otherHost, Addressed uri host → Addressed other otherHost → effectivePort uri = effectivePort other →
        ¬ Collide host otherHost := by
  have hplain {uri : Uri} (huri : IsUri uri) : (∀ host, Addressed uri host → Plain uri host) ↔ Returns uri ∧ Refuses uri := by
    rw [returns_iff laws huri, refuses_iff]
    constructor
    · exact fun h => ⟨fun host hhost => (h host hhost).nameInside, fun host hhost => (h host hhost).portRead⟩
    · exact fun h host hhost => ⟨h.2 host hhost, h.1 host hhost⟩
  constructor
  · intro hfaithful
    have hplain₁ := (hplain huri).mpr ⟨hfaithful.returns, hfaithful.refuses⟩
    have hplain₂ := (hplain hother).mpr ⟨hfaithful.otherReturns, hfaithful.otherRefuses⟩
    refine ⟨hplain₁, hplain₂, fun host otherHost h h' => ?_⟩
    refine (equal_iff laws huri hother h (hplain₁ host h).portRead h' (hplain₂ otherHost h').portRead).mp ?_
    exact hfaithful.equal _ _ (fromUri_eq_ok_iff.mpr ⟨host, h, rfl⟩) (fromUri_eq_ok_iff.mpr ⟨otherHost, h', rfl⟩)
  · rintro ⟨hplain₁, hplain₂, hapart⟩
    obtain ⟨hreturns, hrefuses⟩ := (hplain huri).mp hplain₁
    obtain ⟨hreturns', hrefuses'⟩ := (hplain hother).mp hplain₂
    refine ⟨fun origin otherOrigin horigin hotherOrigin => ?_, hreturns, hreturns', hrefuses, hrefuses'⟩
    obtain ⟨host, h, rfl⟩ := fromUri_eq_ok_iff.mp horigin
    obtain ⟨otherHost, h', rfl⟩ := fromUri_eq_ok_iff.mp hotherOrigin
    exact (equal_iff laws huri hother h (hplain₁ host h).portRead h' (hplain₂ otherHost h').portRead).mpr
      (hapart host otherHost h h')

end Crate

/-! ## Origins on the line -/

def isNameChar (c : Char) : Bool := c.isAlphanum || c ∈ "-._~".toList

def isLiteralChar (c : Char) : Bool := isNameChar c || c == ':'

def isPlainName (text : Text) : Bool := !text.isEmpty && text.all isNameChar

def portOf : Text → Option Text
  | ':' :: port => some port
  | _ => none

def parsePlain (text : Text) : Option Uri :=
  if text.take 7 = "http://".toList then
    match (text.drop 7).takeWhile (· ≠ '/') with
    | '[' :: rest =>
      let inside := rest.takeWhile (· ≠ ']')
      if inside.all isLiteralChar then
        some ⟨some http, some ('[' :: (inside ++ [']'])), portOf (rest.drop (inside.length + 1))⟩
      else none
    | authority =>
      let name := authority.takeWhile (· ≠ ':')
      if isPlainName name ∨ name = [] then some ⟨some http, some name, portOf (authority.drop name.length)⟩ else none
  else none

/-- The crate `http` on plain text. -/
@[reducible] def plain : UriCrate where
  isName := isPlainName
  isLiteral text := text.all isLiteralChar
  parse := parsePlain

theorem takeWhile_ne {text rest : Text} {mark : Char} (h : mark ∉ text) :
    (text ++ mark :: rest).takeWhile (· ≠ mark) = text := by
  rw [List.takeWhile_append_of_pos]
  · simp
  · intro c hc
    have hne : c ≠ mark := fun heq => h (heq ▸ hc)
    simpa using hne

theorem isNameChar_written {radix n : ℕ} (hradix : 0 < radix) (hle : radix ≤ 16) :
    ∀ c ∈ written radix n, isNameChar c = true := by
  intro c hc
  obtain ⟨digit, hdigit, rfl⟩ := List.mem_map.mp hc
  have hall : ∀ d < 16, isNameChar (Nat.digitChar d) = true := by decide
  exact hall digit (Nat.lt_of_lt_of_le (digits_lt hradix digit hdigit) hle)

theorem isNameChar_showIpv4 (addr : Ipv4Addr) : ∀ c ∈ showIpv4 addr, isNameChar c = true := by
  have hdot : isNameChar '.' = true := by decide
  have hoctet (n : ℕ) := @isNameChar_written 10 n (by omega) (by omega)
  simp only [showIpv4, List.mem_append, List.mem_cons]
  rintro c (hc | rfl | hc | rfl | hc | rfl | hc)
  · exact hoctet _ c hc
  · exact hdot
  · exact hoctet _ c hc
  · exact hdot
  · exact hoctet _ c hc
  · exact hdot
  · exact hoctet _ c hc

theorem isLiteralChar_fmtSubslice (segments : List UInt16) : ∀ c ∈ fmtSubslice segments, isLiteralChar c = true := by
  have hgroup (n : ℕ) : ∀ c ∈ written 16 n, isLiteralChar c = true := by
    intro c hc
    simp [isLiteralChar, isNameChar_written (by omega) (by omega) c hc]
  cases segments with
  | nil => simp [fmtSubslice]
  | cons first tail =>
    simp only [fmtSubslice, fmtTail, List.mem_append, List.mem_flatMap, List.mem_cons]
    rintro c (hc | ⟨segment, -, rfl | hc⟩)
    · exact hgroup _ c hc
    · decide
    · exact hgroup _ c hc

theorem isLiteralChar_showIpv6 (addr : Ipv6Addr) : ∀ c ∈ showIpv6 addr, isLiteralChar c = true := by
  rw [showIpv6]
  split
  · intro c hc
    rcases List.mem_append.mp hc with hc | hc
    · have hall : ∀ c ∈ "::ffff:".toList, isLiteralChar c = true := by
        simpa using show "::ffff:".toList.all isLiteralChar = true by decide
      exact hall c hc
    · simp [isLiteralChar, isNameChar_showIpv4 _ c hc]
  · split
    · intro c hc
      simp only [List.mem_append] at hc
      rcases hc with (hc | hc) | hc
      · exact isLiteralChar_fmtSubslice _ c hc
      · have hall : ∀ c ∈ "::".toList, isLiteralChar c = true := by
          simpa using show "::".toList.all isLiteralChar = true by decide
        exact hall c hc
      · exact isLiteralChar_fmtSubslice _ c hc
    · exact isLiteralChar_fmtSubslice _

theorem isNameChar_toLower (c : Char) : isNameChar c.toLower = isNameChar c :=
  toLower_induction (P := fun c lower => isNameChar lower = isNameChar c) (by decide +kernel) (fun _ _ => rfl) c

theorem isLiteralChar_toLower (c : Char) : isLiteralChar c.toLower = isLiteralChar c :=
  toLower_induction (P := fun c lower => isLiteralChar lower = isLiteralChar c) (by decide +kernel) (fun _ _ => rfl) c

theorem notMem_of_all {text : Text} {allowed : Char → Bool} {mark : Char} (h : text.all allowed = true)
    (hmark : allowed mark = false) : mark ∉ text := by
  intro hmem
  rw [List.all_eq_true.mp h mark hmem] at hmark
  cases hmark

section Plain
attribute [local instance] plain

theorem slash_notMem_written (n : ℕ) : '/' ∉ written 10 n := by
  intro hmem
  have hname := isNameChar_written (show 0 < 10 by omega) (by omega) '/' hmem
  revert hname
  decide

theorem parsePlain_name {text port : Text} (hopen : '[' ∉ text) (hslash : '/' ∉ text) (hcolon : ':' ∉ text)
    (hport : '/' ∉ port) : parsePlain ("http://".toList ++ (text ++ ':' :: port) ++ ['/']) =
      if isPlainName text ∨ text = [] then some ⟨some http, some text, some port⟩ else none := by
  have hauthority : ((text ++ ':' :: port) ++ ['/']).takeWhile (· ≠ '/') = text ++ ':' :: port :=
    takeWhile_ne (by simp [hslash, hport])
  have hname : (text ++ ':' :: port).takeWhile (· ≠ ':') = text := takeWhile_ne hcolon
  have htake : ("http://".toList ++ (text ++ ':' :: port) ++ ['/']).take 7 = "http://".toList := by
    rw [List.append_assoc]
    exact List.take_left' rfl
  have hdrop : ("http://".toList ++ (text ++ ':' :: port) ++ ['/']).drop 7 = (text ++ ':' :: port) ++ ['/'] := by
    rw [List.append_assoc]
    exact List.drop_left' rfl
  rw [parsePlain, if_pos htake, hdrop, hauthority]
  split
  · next rest heq =>
    cases text with
    | nil => cases heq
    | cons c text =>
      obtain ⟨rfl, -⟩ := List.cons.inj heq
      simp at hopen
  · simp only [hname, List.drop_left, portOf]

theorem parsePlain_literal {text port : Text} (hliteral : text.all isLiteralChar = true) (hport : '/' ∉ port) :
    parsePlain ("http://".toList ++ ('[' :: (text ++ ']' :: ':' :: port)) ++ ['/']) =
      some ⟨some http, some ('[' :: (text ++ [']'])), some port⟩ := by
  have hslash : '/' ∉ text := notMem_of_all hliteral (by decide)
  have hclose : ']' ∉ text := notMem_of_all hliteral (by decide)
  have hauthority : (('[' :: (text ++ ']' :: ':' :: port)) ++ ['/']).takeWhile (· ≠ '/') =
      '[' :: (text ++ ']' :: ':' :: port) := takeWhile_ne (by simp [hslash, hport])
  have hinside : (text ++ ']' :: ':' :: port).takeWhile (· ≠ ']') = text := takeWhile_ne hclose
  have htake : ("http://".toList ++ ('[' :: (text ++ ']' :: ':' :: port)) ++ ['/']).take 7 = "http://".toList := by
    rw [List.append_assoc]
    exact List.take_left' rfl
  have hdrop : ("http://".toList ++ ('[' :: (text ++ ']' :: ':' :: port)) ++ ['/']).drop 7 =
      ('[' :: (text ++ ']' :: ':' :: port)) ++ ['/'] := by
    rw [List.append_assoc]
    exact List.drop_left' rfl
  have hbehind : (text ++ ']' :: ':' :: port).drop (text.length + 1) = ':' :: port := by
    rw [← List.drop_drop, List.drop_left, List.drop_one, List.tail_cons]
  rw [parsePlain, if_pos htake, hdrop, hauthority]
  simp only [hinside, hliteral, if_true, hbehind, portOf]

theorem plain_lawful : Lawful := by
  have hname {text : Text} (h : isPlainName text = true) : text ≠ [] ∧ text.all isNameChar = true := by
    simpa [isPlainName] using h
  constructor
  case name =>
    intro text h
    obtain ⟨hne, hall⟩ := hname h
    have hmarks : ∀ c ∈ delimiters, isNameChar c = false := by
      simpa using show delimiters.all (!isNameChar ·) = true by decide
    exact ⟨hne, notMem_of_all hall (by decide), fun c hc => notMem_of_all hall (hmarks c hc)⟩
  case literal =>
    intro text h c hc
    have hmarks : ∀ c ∈ delimiters, isLiteralChar c = false := by
      simpa using show delimiters.all (!isLiteralChar ·) = true by decide
    exact notMem_of_all h (hmarks c hc)
  case nameLower =>
    intro text
    simp [UriCrate.isName, isPlainName, toLowercase, Function.comp_def, isNameChar_toLower]
  case literalLower =>
    intro text
    simp [UriCrate.isLiteral, toLowercase, Function.comp_def, isLiteralChar_toLower]
  case ipv4 =>
    intro addr
    have hne : showIpv4 addr ≠ [] := by simp [showIpv4]
    simpa [UriCrate.isName, isPlainName, hne] using isNameChar_showIpv4 addr
  case ipv6 =>
    intro addr
    exact List.all_eq_true.mpr (isLiteralChar_showIpv6 addr)
  case readsName =>
    intro text port h
    have hall := (hname h).2
    have hread := parsePlain_name (notMem_of_all hall (by decide)) (notMem_of_all hall (by decide))
      (notMem_of_all hall (by decide)) (slash_notMem_written port.toNat)
    rwa [if_pos (.inl h)] at hread
  case readsLiteral => exact fun text port h => parsePlain_literal h (slash_notMem_written _)
  case readsOther =>
    intro text port uri hcolon hplain hother hread
    have hparsed := parsePlain_name (hplain _ (by decide)) (hplain _ (by decide)) hcolon
      (slash_notMem_written port.toNat)
    have hread := hparsed.symm.trans hread
    split at hread
    · next hempty =>
      cases hread
      rcases hempty with hname | rfl
      · rw [show isPlainName text = false from hother] at hname
        cases hname
      · rfl
    · cases hread

/-- A URI whose port is 65536. -/
def largePort : Uri := ⟨some http, some "a".toList, some "65536".toList⟩

theorem isUri_largePort : IsUri largePort := by
  intro host hhost
  cases hhost
  exact .inr (.inl (by decide))

/-- The port is mapped to 80. -/
theorem largePort_unfaithful : ¬ ∀ uri other, IsUri uri → IsUri other → Faithful uri other := by
  intro h
  obtain ⟨error, herror⟩ := (h largePort largePort isUri_largePort isUri_largePort).refuses "65536".toList rfl (by decide)
  have hok : Origin.fromUri largePort = .ok ⟨"a".toList, 80⟩ := by decide
  rw [hok] at herror
  cases herror

/-- A name in two spellings, with the port written and not. -/
theorem faithful_spellings :
    Faithful ⟨some http, some "EXAMPLE.com".toList, none⟩ ⟨some http, some "example.COM".toList, some "80".toList⟩ := by
  have huri (text : Text) (port : Option Text) (h : isPlainName text = true) : IsUri ⟨some http, some text, port⟩ := by
    intro host hhost
    cases hhost
    exact .inr (.inl h)
  refine (faithful_iff plain_lawful (huri _ _ (by decide)) (huri _ _ (by decide))).mpr ⟨?_, ?_, ?_⟩
  · rintro host ⟨-, hnamed, -⟩
    cases hnamed
    exact ⟨by simp, fun _ _ => by decide⟩
  · rintro host ⟨-, hnamed, -⟩
    cases hnamed
    refine ⟨?_, fun _ _ => by decide⟩
    rintro text ⟨⟩
    decide
  · rintro host otherHost ⟨-, hnamed, -⟩ ⟨-, hnamed', -⟩ - ⟨-, hbrackets, -⟩
    cases hnamed
    cases hnamed'
    revert hbrackets
    decide

end Plain

end Ngnet.Origins
