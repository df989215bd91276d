import Ngnet.FieldSections
import Ngnet.HeaderMaps

/-!
# Which requests are accepted

`request_head` of `http/head.rs`, in the crate `ngnet-h3`, gathers the fields of a request in one pass over six slots.
The pass is one of `FieldSections` that keeps the last of the `host` fields only, so what it accepts, and what a
handler is given, can be read off the list of fields.
-/

namespace Ngnet.Http3RequestHeads
open QmuxVarints Http3Heads HeaderMaps FieldSections

/-! ## The pass -/

def pseudoNames : List Bytes := [ascii ":method", ascii ":scheme", ascii ":authority", ascii ":path"]

def isHost (name : Bytes) : Bool := eqIgnoreCase name (ascii "host")

attribute [local instance] lawfulBEq_bytes in
/-- Whether a field may be delivered under this name. -/
def isPermitted (name value : Bytes) : Bool :=
  if name = ascii "te" then teIsPermitted value else decide (name ∉ forbidden)

theorem permitted_of_isPermitted {name value : Bytes} (h : isPermitted name value = true) :
    name ∉ forbidden ∧ (name = ascii "te" → teIsPermitted value = true) := by
  rw [isPermitted] at h
  split at h
  · rename_i hte
    exact ⟨by rw [hte]; decide, fun _ => h⟩
  · rename_i hte
    exact ⟨by simpa using h, fun heq => absurd heq hte⟩

/-- What `request_head` keeps of what a pass has gathered. -/
def kept (gathered : Gathered Bytes Bytes Field) : RequestHead where
  method := valueOf (ascii ":method") gathered.pseudo
  scheme := valueOf (ascii ":scheme") gathered.pseudo
  authority := valueOf (ascii ":authority") gathered.pseudo
  path := valueOf (ascii ":path") gathered.pseudo
  host := gathered.aside.getLast?
  seenField := gathered.seen
  headers := ofFields gathered.regular

theorem toOption_fill {α : Type} (slot : Option Bytes) (value : Bytes) (f : Option Bytes → α) :
    ((fill slot value).map f).toOption = if slot = none then some (f (some value)) else none := by
  cases slot <;> rfl

theorem toOption_pseudo (gathered : Gathered Bytes Bytes Field) (name value : Bytes) :
    ((kept gathered).pseudo name value).toOption =
      if gathered.seen = true ∨ name ∉ pseudoNames ∨ name ∈ gathered.pseudo.map (·.1) then none
      else some (kept { gathered with pseudo := gathered.pseudo ++ [(name, value)] }) := by
  have hnew (name : Bytes) : valueOf name gathered.pseudo = none ↔ name ∉ gathered.pseudo.map (·.1) :=
    valueOf_eq_none_iff
  by_cases hseen : gathered.seen = true
  · rw [if_pos (.inl hseen), RequestHead.pseudo]
    simp [hseen, kept, Except.toOption]
  by_cases hknown : name ∈ pseudoNames
  · by_cases hfilled : name ∈ gathered.pseudo.map (·.1)
    · have hslot : valueOf name gathered.pseudo ≠ none := fun hnone => (hnew name).mp hnone hfilled
      rw [if_pos (.inr (.inr hfilled)), RequestHead.pseudo]
      simp only [pseudoNames, List.mem_cons, List.not_mem_nil, or_false] at hknown
      rcases hknown with rfl | rfl | rfl | rfl <;> simp +decide [kept, hseen, toOption_fill, hslot]
    · have hslot : valueOf name gathered.pseudo = none := (hnew name).mpr hfilled
      rw [if_neg (by simpa [hseen, hknown] using hfilled), RequestHead.pseudo]
      simp only [pseudoNames, List.mem_cons, List.not_mem_nil, or_false] at hknown
      rcases hknown with rfl | rfl | rfl | rfl <;>
        simp +decide [kept, hseen, toOption_fill, hslot, valueOf_concat]
  · rw [if_pos (.inr (.inl hknown)), RequestHead.pseudo]
    simp only [pseudoNames, List.mem_cons, List.not_mem_nil, or_false, not_or] at hknown
    simp only [kept, hseen, Bool.false_eq_true, if_false, hknown.1, hknown.2.1, hknown.2.2.1, hknown.2.2.2]
    split <;> rfl

theorem agreedAuthority_eq_ok_iff {authority host : Option Bytes} {agreed : Bytes} :
    agreedAuthority authority host = .ok agreed ↔
      (authority = some agreed ∨ authority = none ∧ host = some agreed ∧ agreed ≠ []) ∧
        ∀ value, host = some value → value = agreed := by
  cases authority with
  | none =>
    cases host with
    | none => simp [agreedAuthority]
    | some host =>
      by_cases hempty : host = []
      · simp only [agreedAuthority, hempty, ne_eq, not_true_eq_false, if_false, reduceCtorEq, false_iff]
        rintro ⟨h | ⟨-, h, hne⟩, -⟩
        · cases h
        · exact hne (Option.some.inj h).symm
      · rw [agreedAuthority, if_pos hempty, Except.ok.injEq]
        constructor
        · rintro rfl
          exact ⟨.inr ⟨rfl, rfl, hempty⟩, fun _ h => (Option.some.inj h).symm⟩
        · rintro ⟨-, hall⟩
          exact hall _ rfl
  | some authority =>
    cases host with
    | none => simp [agreedAuthority]
    | some host =>
      by_cases hsame : authority = host
      · simp [agreedAuthority, hsame]
      · simp only [agreedAuthority, ne_eq, hsame, not_false_eq_true, if_true, reduceCtorEq, false_iff]
        rintro ⟨h | ⟨h, -⟩, hall⟩
        · exact hsame ((Option.some.inj h).trans (hall _ rfl).symm)
        · cases h

section Requests
variable [Http]

/-- A regular field other than `host`, as it is delivered. -/
def deliver (name value : Bytes) : Option Field :=
  (Http.headerName name).bind fun name =>
    if isPermitted name value && Http.headerValue value then some (name, value) else none

def rules : Rules Bytes Bytes Field := ⟨isPseudo, pseudoNames, isHost, deliver⟩

theorem toOption_regular (gathered : Gathered Bytes Bytes Field) (name value : Bytes) :
    ((kept gathered).regular name value).toOption =
      if isHost name = true then some (kept { gathered with aside := gathered.aside ++ [value], seen := true })
      else (deliver name value).map fun field =>
        kept { gathered with regular := gathered.regular ++ [field], seen := true } := by
  rw [RequestHead.regular, isHost, deliver]
  split
  · simp [kept, Except.toOption]
  cases Http.headerName name with
  | none => rfl
  | some name =>
    simp only [Option.bind_some, isPermitted]
    by_cases hte : name = ascii "te"
    · by_cases hpermitted : teIsPermitted value = true <;> by_cases hvalue : Http.headerValue value = true <;>
        simp [hte, hpermitted, hvalue, Except.toOption, kept, ofFields_concat]
    · by_cases hforbidden : name ∈ forbidden <;> by_cases hvalue : Http.headerValue value = true <;>
        simp [hte, hforbidden, hvalue, Except.toOption, kept, ofFields_concat]

theorem toOption_gatherRequest (fields : List Field) (gathered : Gathered Bytes Bytes Field) :
    (gatherRequest fields (kept gathered)).toOption = (fields.foldlM rules.take gathered).map kept := by
  induction fields generalizing gathered with
  | nil => rfl
  | cons field fields ih =>
    obtain ⟨name, value⟩ := field
    have hstep : (if isPseudo name then (kept gathered).pseudo name value
        else (kept gathered).regular name value).toOption = (rules.take gathered (name, value)).map kept := by
      rw [Rules.take]
      by_cases hname : isPseudo name = true
      · rw [if_pos hname, if_pos (show rules.isPseudo name = true from hname), toOption_pseudo]
        split
        · rename_i hbad
          rw [if_pos (show gathered.seen = true ∨ name ∉ rules.known ∨ _ from hbad), Option.map_none]
        · rename_i hgood
          rw [if_neg (show ¬ (gathered.seen = true ∨ name ∉ rules.known ∨ _) from hgood), Option.map_some]
      · rw [if_neg hname, if_neg (show ¬ rules.isPseudo name = true from hname), toOption_regular]
        split
        · rename_i hhost
          rw [if_pos (show rules.isAside name = true from hhost), Option.map_some]
        · rename_i hhost
          rw [if_neg (show ¬ rules.isAside name = true from hhost), Option.map_map]
          rfl
    rw [gatherRequest, List.foldlM_cons]
    revert hstep
    generalize (if isPseudo name then (kept gathered).pseudo name value
      else (kept gathered).regular name value) = result
    intro hstep
    cases htake : rules.take gathered (name, value) with
    | none =>
      rw [htake] at hstep
      cases result with
      | error error => rfl
      | ok head => cases hstep
    | some next =>
      rw [htake] at hstep
      cases result with
      | error error => cases hstep
      | ok head =>
        cases hstep
        exact ih next

theorem gatherRequest_eq_ok_iff {fields : List Field} {head : RequestHead} :
    gatherRequest fields {} = .ok head ↔
      (rules.WellPlaced fields ∧ ∀ field ∈ rules.others fields, (deliver field.1 field.2).isSome = true) ∧
        head = kept (rules.sorted fields) := by
  have hgather := toOption_gatherRequest fields {}
  have hok : gatherRequest fields {} = .ok head ↔ (gatherRequest fields (kept {})).toOption = some head := by
    change gatherRequest fields (kept {}) = _ ↔ _
    cases gatherRequest fields (kept {}) <;> simp [Except.toOption]
  rw [hok, hgather, Option.map_eq_some_iff]
  constructor
  · rintro ⟨gathered, hgathered, rfl⟩
    obtain ⟨hgood, rfl⟩ := rules.gather_eq_some_iff.mp hgathered
    exact ⟨hgood, rfl⟩
  · rintro ⟨hgood, rfl⟩
    exact ⟨_, rules.gather_eq_some_iff.mpr ⟨hgood, rfl⟩, rfl⟩

/-! ## Behind the pass -/

/-- What is carried, once the fields are gathered. -/
structure Carried (method scheme authority pathAndQuery : Bytes) (headers : HeaderMap) : Prop where
  supported : schemeIsSupported scheme = true
  token : Http.method method = true
  exchange : method ≠ connect
  valid : Http.authority authority = true
  userinfo : 0x40 ∉ authority
  target : pathOf pathAndQuery ≠ ascii "*"
  uri : Http.uri scheme authority pathAndQuery = true
  fits : Http.fits headers = true

theorem assembleRequest_eq_ok_iff {head : RequestHead} {parts : RequestParts} :
    assembleRequest head = .ok parts ↔ ∃ method path authority pathAndQuery, head.method = some method ∧
      head.path = some path ∧ agreedAuthority head.authority head.host = .ok authority ∧
      Http.pathAndQuery path = some pathAndQuery ∧
      Carried method (head.scheme.getD (ascii "https")) authority pathAndQuery head.headers ∧
      parts = ⟨method, ⟨some (head.scheme.getD (ascii "https")), some authority, some pathAndQuery⟩, head.headers⟩ := by
  rw [assembleRequest]
  cases hmethod : head.method with
  | none => simp [bind, Except.bind]
  | some method =>
    cases hpath : head.path with
    | none => simp [bind, Except.bind]
    | some path =>
      cases hauthority : agreedAuthority head.authority head.host with
      | error error => simp [bind, Except.bind]
      | ok authority =>
        simp only [Option.elim_some, bind, Except.bind, Option.some.injEq, Except.ok.injEq, exists_and_left,
          exists_eq_left']
        generalize head.scheme.getD (ascii "https") = scheme
        constructor
        · intro h
          split at h
          · cases h
          rename_i hscheme
          split at h
          · cases h
          rename_i htoken
          split at h
          · cases h
          rename_i hconnect
          split at h
          · cases h
          rename_i hvalid
          split at h
          · cases h
          rename_i huserinfo
          split at h
          · cases h
          rename_i pathAndQuery hparsed
          split at h
          · cases h
          rename_i hasterisk
          split at h
          · cases h
          rename_i huri
          split at h
          · cases h
          rename_i hfits
          cases h
          exact ⟨pathAndQuery, hparsed, ⟨by simpa using hscheme, by simpa using htoken, hconnect,
            by simpa using hvalid, huserinfo, hasterisk, by simpa using huri, by simpa using hfits⟩, rfl⟩
        · rintro ⟨pathAndQuery, hparsed, hcarried, rfl⟩
          simp [hparsed, hcarried.supported, hcarried.token, hcarried.exchange, hcarried.valid, hcarried.userinfo,
            hcarried.target, hcarried.uri, hcarried.fits]

/-! ## Accepted requests -/

/-- The values of the fields named `host`, in any letter case. -/
def hosts (fields : List Field) : List Bytes := rules.asides fields

def partsOf (method scheme authority pathAndQuery : Bytes) (headers : HeaderMap) : RequestParts :=
  ⟨method, ⟨some scheme, some authority, some pathAndQuery⟩, headers⟩

/-- What a handler is given, read off the fields of a request. -/
structure Guarded (fields : List Field) (method scheme authority pathAndQuery : Bytes) (headers : HeaderMap) : Prop where
  placed : rules.WellPlaced fields
  methodField : (ascii ":method", method) ∈ fields
  schemeField : (ascii ":scheme", scheme) ∈ fields ∨
    (∀ value, (ascii ":scheme", value) ∉ fields) ∧ scheme = ascii "https"
  authorityField : (ascii ":authority", authority) ∈ fields ∨
    (∀ value, (ascii ":authority", value) ∉ fields) ∧ authority ∈ hosts fields ∧ authority ≠ []
  userinfo : 0x40 ∉ authority
  pathField : ∃ path, (ascii ":path", path) ∈ fields ∧ Http.pathAndQuery path = some pathAndQuery
  delivered : ∀ field ∈ rules.others fields, (deliver field.1 field.2).isSome = true
  exact : headers = ofFields ((rules.others fields).filterMap fun field => deliver field.1 field.2)
  permitted : ∀ name, ∀ value ∈ getAll headers name,
    name ∉ forbidden ∧ (name = ascii "te" → teIsPermitted value = true)

theorem permitted_of_deliver {name value : Bytes} {field : Field} (h : deliver name value = some field) :
    isPermitted field.1 field.2 = true := by
  obtain ⟨written, -, hfield⟩ := Option.bind_eq_some_iff.mp h
  split at hfield
  · rename_i hgood
    cases hfield
    exact (Bool.and_eq_true_iff.mp hgood).1
  · cases hfield

theorem permitted_headers (fields : List Field) (name value : Bytes)
    (h : value ∈ getAll (ofFields (fields.filterMap fun field => deliver field.1 field.2)) name) :
    name ∉ forbidden ∧ (name = ascii "te" → teIsPermitted value = true) := by
  rw [getAll_ofFields] at h
  obtain ⟨delivered, hmem, rfl⟩ := List.mem_map.mp h
  obtain ⟨hmem, hname⟩ := List.mem_filter.mp hmem
  obtain ⟨field, -, hdeliver⟩ := List.mem_filterMap.mp hmem
  obtain rfl : delivered.1 = name := by simpa using hname
  exact permitted_of_isPermitted (permitted_of_deliver hdeliver)

theorem requestHead_eq_ok_iff {fields : List Field} {parts : RequestParts} :
    requestHead fields = .ok parts ↔ ∃ method scheme authority pathAndQuery headers,
      parts = partsOf method scheme authority pathAndQuery headers ∧
      Guarded fields method scheme authority pathAndQuery headers ∧
      Carried method scheme authority pathAndQuery headers ∧
      ∀ host, (hosts fields).getLast? = some host → host = authority := by
  have hsplit : requestHead fields = .ok parts ↔
      ∃ head, gatherRequest fields {} = .ok head ∧ assembleRequest head = .ok parts := by
    rw [requestHead]
    cases gatherRequest fields {} <;> simp
  rw [hsplit]
  constructor
  · rintro ⟨head, hgather, hassemble⟩
    obtain ⟨⟨hplaced, hdelivered⟩, rfl⟩ := gatherRequest_eq_ok_iff.mp hgather
    obtain ⟨method, path, authority, pathAndQuery, hmethod, hpath, hauthority, hparsed, hcarried, rfl⟩ :=
      assembleRequest_eq_ok_iff.mp hassemble
    obtain ⟨hagreed, hhost⟩ := agreedAuthority_eq_ok_iff.mp hauthority
    have hfound {name value : Bytes} (hname : isPseudo name = true) :
        valueOf name (rules.pseudoFields fields) = some value ↔ (name, value) ∈ fields :=
      hplaced.valueOf_eq_some_iff rules hname
    have hmissing {name : Bytes} (hname : isPseudo name = true) (hnone : valueOf name (rules.pseudoFields fields) = none)
        (value : Bytes) : (name, value) ∉ fields := fun hmem => nomatch hnone.symm.trans ((hfound hname).mpr hmem)
    refine ⟨method, _, authority, pathAndQuery, _, rfl, ?_, hcarried, hhost⟩
    constructor
    case placed => exact hplaced
    case methodField => exact (hfound (by decide)).mp hmethod
    case schemeField =>
      cases hscheme : (kept (rules.sorted fields)).scheme with
      | none => exact .inr ⟨hmissing (by decide) hscheme, rfl⟩
      | some scheme => exact .inl ((hfound (by decide)).mp hscheme)
    case authorityField =>
      rcases hagreed with hagreed | ⟨hnone, hlast, hne⟩
      · exact .inl ((hfound (by decide)).mp hagreed)
      · exact .inr ⟨hmissing (by decide) hnone, List.mem_of_getLast? hlast, hne⟩
    case userinfo => exact hcarried.userinfo
    case pathField => exact ⟨path, (hfound (by decide)).mp hpath, hparsed⟩
    case delivered => exact hdelivered
    case exact => rfl
    case permitted => exact permitted_headers _
  · rintro ⟨method, scheme, authority, pathAndQuery, headers, rfl, hguarded, hcarried, hhost⟩
    refine ⟨_, gatherRequest_eq_ok_iff.mpr ⟨⟨hguarded.placed, hguarded.delivered⟩, rfl⟩, ?_⟩
    have hfound {name value : Bytes} (hname : isPseudo name = true) :
        valueOf name (rules.pseudoFields fields) = some value ↔ (name, value) ∈ fields :=
      hguarded.placed.valueOf_eq_some_iff rules hname
    have hmissing {name : Bytes} (hname : isPseudo name = true) (hnone : ∀ value, (name, value) ∉ fields) :
        valueOf name (rules.pseudoFields fields) = none := by
      cases hvalue : valueOf name (rules.pseudoFields fields) with
      | none => rfl
      | some value => exact absurd ((hfound hname).mp hvalue) (hnone value)
    obtain ⟨path, hpath, hparsed⟩ := hguarded.pathField
    have hscheme : (kept (rules.sorted fields)).scheme.getD (ascii "https") = scheme := by
      rcases hguarded.schemeField with hscheme | ⟨hnone, rfl⟩
      · have hsome : valueOf (ascii ":scheme") (rules.pseudoFields fields) = some scheme := (hfound (by decide)).mpr hscheme
        exact congrArg (·.getD (ascii "https")) hsome
      · have hnone : valueOf (ascii ":scheme") (rules.pseudoFields fields) = none := hmissing (by decide) hnone
        exact congrArg (·.getD (ascii "https")) hnone
    have hheaders : (kept (rules.sorted fields)).headers = headers := hguarded.exact.symm
    refine assembleRequest_eq_ok_iff.mpr ⟨method, path, authority, pathAndQuery, (hfound (by decide)).mpr hguarded.methodField,
      (hfound (by decide)).mpr hpath, agreedAuthority_eq_ok_iff.mpr ⟨?_, hhost⟩, hparsed, ?_, ?_⟩
    · rcases hguarded.authorityField with hauthority | ⟨hnone, hmem, hne⟩
      · exact .inl ((hfound (by decide)).mpr hauthority)
      · obtain ⟨last, hlast⟩ := Option.isSome_iff_exists.mp (List.getLast?_isSome.mpr (List.ne_nil_of_mem hmem))
        obtain rfl := hhost last hlast
        exact .inr ⟨hmissing (by decide) hnone, hlast, hne⟩
    · rwa [hscheme, hheaders]
    · rw [hscheme, hheaders]
      rfl

/-- A request that is accepted is placed and delivered as it should be. Where its `host` fields say one thing only, it
is accepted exactly if they say what `:authority` says and every part of it can be carried. -/
theorem requestHead_guarded (fields : List Field) :
    (∀ parts, requestHead fields = .ok parts → ∃ method scheme authority pathAndQuery headers,
      parts = partsOf method scheme authority pathAndQuery headers ∧
      Guarded fields method scheme authority pathAndQuery headers ∧
      Carried method scheme authority pathAndQuery headers) ∧
    ((∀ host ∈ hosts fields, ∀ other ∈ hosts fields, host = other) →
      ∀ method scheme authority pathAndQuery headers,
        requestHead fields = .ok (partsOf method scheme authority pathAndQuery headers) ↔
          Guarded fields method scheme authority pathAndQuery headers ∧
          Carried method scheme authority pathAndQuery headers ∧ ∀ host ∈ hosts fields, host = authority) := by
  constructor
  · intro parts h
    obtain ⟨method, scheme, authority, pathAndQuery, headers, hparts, hguarded, hcarried, -⟩ := requestHead_eq_ok_iff.mp h
    exact ⟨method, scheme, authority, pathAndQuery, headers, hparts, hguarded, hcarried⟩
  · intro hsame method scheme authority pathAndQuery headers
    rw [requestHead_eq_ok_iff]
    constructor
    · rintro ⟨_, _, _, _, _, hparts, hguarded, hcarried, hlast⟩
      cases hparts
      refine ⟨hguarded, hcarried, fun host hhost => ?_⟩
      obtain ⟨last, hfound⟩ := Option.isSome_iff_exists.mp (List.getLast?_isSome.mpr (List.ne_nil_of_mem hhost))
      exact (hsame host hhost last (List.mem_of_getLast? hfound)).trans (hlast last hfound)
    · rintro ⟨hguarded, hcarried, hhosts⟩
      exact ⟨_, _, _, _, _, rfl, hguarded, hcarried, fun host hlast => hhosts host (List.mem_of_getLast? hlast)⟩

end Requests

/-! ## Requests on the line -/

/-- The crate `http` on plain text. -/
@[reducible] def plain : Http where
  headerName name :=
    let written := name.map toLower
    if written ≠ [] ∧ written.all isNameByte then some written else none
  headerValue value := value.all isValueByte
  statusCode value :=
    if value.length = 3 ∧ value.all isDigit then some (value.foldl (fun n digit => 10 * n + (digit.toNat - 48)) 0)
    else none
  method method := decide (method ≠ []) && method.all fun byte => isNameByte (toLower byte)
  authority authority := decide (authority ≠ []) && authority.all fun byte =>
    isNameByte (toLower byte) || byte ∈ ascii ":@[]"
  pathAndQuery path :=
    if path.head? = some 0x2f ∨ path = ascii "*" then some (path.takeWhile (· ≠ 0x23)) else none
  uri _ _ _ := true
  fits _ := true

section Plain
attribute [local instance] plain

def requestFor (method authority : String) (hosts : List String) : List Field :=
  [(ascii ":method", ascii method), (ascii ":scheme", ascii "https"), (ascii ":authority", ascii authority),
    (ascii ":path", ascii "/")] ++ hosts.map fun host => (ascii "host", ascii host)

/-- That a list is accepted says nothing about a `host` field before the last one, and a `CONNECT` is refused however
well its fields are placed and parsed. -/
theorem not_exactly_guarded :
    (¬ ∀ fields method scheme authority pathAndQuery headers,
      requestHead fields = .ok (partsOf method scheme authority pathAndQuery headers) →
        ∀ host ∈ hosts fields, host = authority) ∧
    ¬ ∀ fields method scheme authority pathAndQuery headers,
      Guarded fields method scheme authority pathAndQuery headers → (∀ host ∈ hosts fields, host = authority) →
      Http.method method = true → Http.authority authority = true → schemeIsSupported scheme = true →
      Http.uri scheme authority pathAndQuery = true → Http.fits headers = true →
        ∃ parts, requestHead fields = .ok parts := by
  constructor
  · intro h
    have haccepted : requestHead (requestFor "GET" "a" ["b", "a"]) =
        .ok (partsOf (ascii "GET") (ascii "https") (ascii "a") (ascii "/") []) := by decide +kernel
    exact absurd (h _ _ _ _ _ _ haccepted (ascii "b") (by decide)) (by decide)
  · intro h
    have hguarded : Guarded (requestFor "CONNECT" "a" []) connect (ascii "https") (ascii "a") (ascii "/") [] := by
      constructor
      case placed => exact ⟨by decide, by decide, by decide⟩
      case methodField => decide
      case schemeField => exact .inl (by decide)
      case authorityField => exact .inl (by decide)
      case userinfo => decide
      case pathField => exact ⟨ascii "/", by decide, by decide⟩
      case delivered => decide
      case exact => decide
      case permitted => simp [getAll]
    obtain ⟨parts, hparts⟩ := h _ _ _ _ _ _ hguarded (by decide) (by decide) (by decide) (by decide) rfl rfl
    have hrefused : (requestHead (requestFor "CONNECT" "a" [])).toOption = none := by decide +kernel
    rw [hparts] at hrefused
    cases hrefused

end Plain

end Ngnet.Http3RequestHeads
