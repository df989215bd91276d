import Ngnet.Http2Heads
import Ngnet.Http3RequestHeads

/-!
# Which requests are accepted

`request_head` of `http/head.rs`, in the crate `ngnet-h2`, is the pass of its HTTP/3 sibling, but for the fields that it
delivers: it forbids none. The scheme is `http`, and the authority is that of `:authority`.
-/

namespace Ngnet.Http2RequestHeads
open QmuxVarints FieldSections HeaderMaps
open Http3Heads (Field HeaderMap Http RequestParts ascii eqIgnoreCase isPseudo pathOf connect)
open Http3RequestHeads (pseudoNames isHost kept partsOf plain)
open Http2Heads

/-! ## The pass -/

/-- The slots of the pass are those of its sibling. -/
def ofSibling (head : Http3Heads.RequestHead) : RequestHead :=
  ⟨head.method, head.scheme, head.authority, head.path, head.host, head.seenField, head.headers⟩

theorem toOption_fill (slot : Option Bytes) (value : Bytes) (f : Option Bytes → Http3Heads.RequestHead)
    (g : Option Bytes → RequestHead) (h : ∀ slot, g slot = ofSibling (f slot)) :
    ((fill slot value).map g).toOption = ((Http3Heads.fill slot value).map f).toOption.map ofSibling := by
  cases slot with
  | none => exact congrArg some (h _)
  | some => rfl

theorem toOption_pseudo (head : Http3Heads.RequestHead) (name value : Bytes) :
    ((ofSibling head).pseudo name value).toOption = (head.pseudo name value).toOption.map ofSibling := by
  rw [RequestHead.pseudo, Http3Heads.RequestHead.pseudo]
  change (if head.seenField = true then _ else _ : Except Error RequestHead).toOption = _
  split
  · rfl
  split
  · exact toOption_fill _ _ _ _ fun _ => rfl
  split
  · exact toOption_fill _ _ _ _ fun _ => rfl
  split
  · exact toOption_fill _ _ _ _ fun _ => rfl
  split
  · exact toOption_fill _ _ _ _ fun _ => rfl
  split
  · rfl
  · rfl

section Requests
variable [Http]

/-- A regular field other than `host`, as it is delivered. -/
def deliver (name value : Bytes) : Option Field :=
  (Http.headerName name).bind fun name => if Http.headerValue value then some (name, value) else none

def rules : Rules Bytes Bytes Field := ⟨isPseudo, pseudoNames, isHost, deliver⟩

theorem toOption_regular (gathered : Gathered Bytes Bytes Field) (name value : Bytes) :
    ((ofSibling (kept gathered)).regular name value).toOption =
      if isHost name = true then
        some (ofSibling (kept { gathered with aside := gathered.aside ++ [value], seen := true }))
      else (deliver name value).map fun field =>
        ofSibling (kept { gathered with regular := gathered.regular ++ [field], seen := true }) := by
  rw [RequestHead.regular, isHost, deliver]
  split
  · simp [kept, ofSibling, Except.toOption]
  cases Http.headerName name with
  | none => rfl
  | some name => by_cases hvalue : Http.headerValue value = true <;>
      simp [hvalue, Except.toOption, kept, ofSibling, ofFields_concat]

theorem toOption_next (gathered : Gathered Bytes Bytes Field) (name value : Bytes) :
    (if isPseudo name then (ofSibling (kept gathered)).pseudo name value
      else (ofSibling (kept gathered)).regular name value).toOption =
      (rules.take gathered (name, value)).map (ofSibling ∘ kept) := by
  rw [Rules.take]
  by_cases hname : isPseudo name = true
  · rw [if_pos hname, if_pos (show rules.isPseudo name = true from hname), toOption_pseudo,
      Http3RequestHeads.toOption_pseudo]
    split
    · rename_i hbad
      rw [if_pos (show gathered.seen = true ∨ name ∉ rules.known ∨ _ from hbad), Option.map_none, Option.map_none]
    · rename_i hgood
      rw [if_neg (show ¬ (gathered.seen = true ∨ name ∉ rules.known ∨ _) from hgood), Option.map_some, Option.map_some]
      rfl
  · rw [if_neg hname, if_neg (show ¬ rules.isPseudo name = true from hname), toOption_regular]
    split
    · rename_i hhost
      rw [if_pos (show rules.isAside name = true from hhost), Option.map_some]
      rfl
    · rename_i hhost
      rw [if_neg (show ¬ rules.isAside name = true from hhost), Option.map_map]
      rfl

theorem toOption_gatherRequest (fields : List Field) (gathered : Gathered Bytes Bytes Field) :
    (gatherRequest fields (ofSibling (kept gathered))).toOption =
      (fields.foldlM rules.take gathered).map (ofSibling ∘ kept) := by
  induction fields generalizing gathered with
  | nil => rfl
  | cons field fields ih =>
    obtain ⟨name, value⟩ := field
    have hstep := toOption_next gathered name value
    rw [gatherRequest, List.foldlM_cons]
    revert hstep
    generalize (if isPseudo name then (ofSibling (kept gathered)).pseudo name value
      else (ofSibling (kept gathered)).regular name value) = result
    intro hstep
    cases htake : rules.take gathered (name, value) with
    | none =>
      rw [htake] at hstep
      cases result with
      | error error => rfl
      | ok head => cases hstep
    | some next =>
      rw [htake] at hstep
      cases result with
      | error error => cases hstep
      | ok head =>
        cases hstep
        exact ih next

theorem gatherRequest_eq_ok_iff {fields : List Field} {head : RequestHead} :
    gatherRequest fields {} = .ok head ↔
      (rules.WellPlaced fields ∧ ∀ field ∈ rules.others fields, (deliver field.1 field.2).isSome = true) ∧
        head = ofSibling (kept (rules.sorted fields)) := by
  have hgather := toOption_gatherRequest fields {}
  have hok : gatherRequest fields {} = .ok head ↔
      (gatherRequest fields (ofSibling (kept {}))).toOption = some head := by
    change gatherRequest fields (ofSibling (kept {})) = _ ↔ _
    cases gatherRequest fields (ofSibling (kept {})) <;> simp [Except.toOption]
  rw [hok, hgather, Option.map_eq_some_iff]
  constructor
  · rintro ⟨gathered, hgathered, rfl⟩
    obtain ⟨hgood, rfl⟩ := rules.gather_eq_some_iff.mp hgathered
    exact ⟨hgood, rfl⟩
  · rintro ⟨hgood, rfl⟩
    exact ⟨_, rules.gather_eq_some_iff.mpr ⟨hgood, rfl⟩, rfl⟩

/-! ## Behind the pass -/

/-- What the crate `http` makes of the parts of a request. -/
structure Parses (fields : List Field) (method authority pathAndQuery : Bytes) (headers : HeaderMap) : Prop where
  token : Http.method method = true
  valid : Http.authority authority = true
  target : ∃ path, (ascii ":path", path) ∈ fields ∧ Http.pathAndQuery path = some pathAndQuery
  delivered : ∀ field ∈ rules.others fields, (deliver field.1 field.2).isSome = true
  uri : Http.uri (ascii "http") authority pathAndQuery = true
  fits : Http.fits headers = true

/-- What a handler is given, read off the fields of a request. -/
structure Trusted (fields : List Field) (method authority pathAndQuery : Bytes) (headers : HeaderMap) : Prop where
  placed : rules.WellPlaced fields
  methodField : (ascii ":method", method) ∈ fields
  schemeField : ∀ value, (ascii ":scheme", value) ∈ fields → value = ascii "http"
  authorityField : (ascii ":authority", authority) ∈ fields
  userinfo : 0x40 ∉ authority
  asterisk : pathOf pathAndQuery ≠ ascii "*"
  exact : headers = ofFields ((rules.others fields).filterMap fun field => deliver field.1 field.2)

theorem assembleRequest_eq_ok_iff {head : RequestHead} {parts : RequestParts} :
    assembleRequest head = .ok parts ↔ ∃ method path authority pathAndQuery, head.method = some method ∧
      head.path = some path ∧ head.authority = some authority ∧ Http.pathAndQuery path = some pathAndQuery ∧
      (∀ host, head.host = some host → host = authority) ∧ (∀ scheme, head.scheme = some scheme → scheme = ascii "http") ∧
      Http.method method = true ∧ method ≠ connect ∧ Http.authority authority = true ∧ 0x40 ∉ authority ∧
      pathOf pathAndQuery ≠ ascii "*" ∧ Http.uri (ascii "http") authority pathAndQuery = true ∧
      Http.fits head.headers = true ∧ parts = partsOf method (ascii "http") authority pathAndQuery head.headers := by
  rw [assembleRequest]
  cases hmethod : head.method with
  | none => simp [bind, Except.bind]
  | some method =>
    cases hpath : head.path with
    | none => simp [bind, Except.bind]
    | some path =>
      cases hauthority : head.authority with
      | none => simp [bind, Except.bind]
      | some authority =>
        simp only [Option.elim_some, bind, Except.bind, Option.some.injEq, exists_and_left, exists_eq_left']
        have hhost : ¬ (head.host.any fun host => decide (host ≠ authority)) = true ↔
            ∀ host, head.host = some host → host = authority := by
          cases head.host <;> simp
        have hscheme : head.scheme.getD (ascii "http") = ascii "http" ↔
            ∀ scheme, head.scheme = some scheme → scheme = ascii "http" := by
          cases head.scheme <;> simp
        rw [← hhost, ← hscheme]
        generalize head.scheme.getD (ascii "http") = scheme
        constructor
        · intro h
          split at h
          · cases h
          rename_i hagrees
          split at h
          · cases h
          rename_i hcleartext
          obtain rfl : scheme = ascii "http" := Decidable.not_not.mp hcleartext
          split at h
          · cases h
          rename_i htoken
          split at h
          · cases h
          rename_i hconnect
          split at h
          · cases h
          rename_i hvalid
          split at h
          · cases h
          rename_i huserinfo
          split at h
          · cases h
          rename_i pathAndQuery hparsed
          split at h
          · cases h
          rename_i hasterisk
          split at h
          · cases h
          rename_i huri
          split at h
          · cases h
          rename_i hfits
          cases h
          exact ⟨pathAndQuery, hparsed, hagrees, rfl, by simpa using htoken, hconnect, by simpa using hvalid, huserinfo,
            hasterisk, by simpa using huri, by simpa using hfits, rfl⟩
        · rintro ⟨pathAndQuery, hparsed, hagrees, rfl, htoken, hconnect, hvalid, huserinfo, hasterisk, huri, hfits, rfl⟩
          rw [if_neg hagrees, if_neg (not_not.mpr rfl), if_neg (not_not.mpr htoken), if_neg hconnect,
            if_neg (not_not.mpr hvalid), if_neg huserinfo]
          simp only [hparsed]
          rw [if_neg hasterisk, if_neg (not_not.mpr huri), if_neg (not_not.mpr hfits)]
          rfl

/-! ## Accepted requests -/

/-- The values of the fields named `host`, in any letter case. -/
def hosts (fields : List Field) : List Bytes := rules.asides fields

theorem requestHead_eq_ok_iff {fields : List Field} {parts : RequestParts} :
    requestHead fields = .ok parts ↔ ∃ method authority pathAndQuery headers,
      parts = partsOf method (ascii "http") authority pathAndQuery headers ∧
      Trusted fields method authority pathAndQuery headers ∧ Parses fields method authority pathAndQuery headers ∧
      method ≠ connect ∧ ∀ host, (hosts fields).getLast? = some host → host = authority := by
  have hsplit : requestHead fields = .ok parts ↔
      ∃ head, gatherRequest fields {} = .ok head ∧ assembleRequest head = .ok parts := by
    rw [requestHead]
    cases gatherRequest fields {} <;> simp
  rw [hsplit]
  constructor
  · rintro ⟨head, hgather, hassemble⟩
    obtain ⟨⟨hplaced, hdelivered⟩, rfl⟩ := gatherRequest_eq_ok_iff.mp hgather
    obtain ⟨method, path, authority, pathAndQuery, hmethod, hpath, hauthority, hparsed, hagrees, hcleartext, htoken,
      hconnect, hvalid, huserinfo, hasterisk, huri, hfits, rfl⟩ := assembleRequest_eq_ok_iff.mp hassemble
    have hfound {name value : Bytes} (hname : isPseudo name = true) :
        valueOf name (rules.pseudoFields fields) = some value ↔ (name, value) ∈ fields :=
      hplaced.valueOf_eq_some_iff rules hname
    refine ⟨method, authority, pathAndQuery, _, rfl, ?_, ?_, hconnect, hagrees⟩
    · constructor
      case placed => exact hplaced
      case methodField => exact (hfound (by decide)).mp hmethod
      case schemeField => exact fun value hvalue => hcleartext value ((hfound (by decide)).mpr hvalue)
      case authorityField => exact (hfound (by decide)).mp hauthority
      case userinfo => exact huserinfo
      case asterisk => exact hasterisk
      case exact => rfl
    · exact ⟨htoken, hvalid, ⟨path, (hfound (by decide)).mp hpath, hparsed⟩, hdelivered, huri, hfits⟩
  · rintro ⟨method, authority, pathAndQuery, headers, rfl, htrusted, hparses, hconnect, hagrees⟩
    have hfound {name value : Bytes} (hname : isPseudo name = true) :
        valueOf name (rules.pseudoFields fields) = some value ↔ (name, value) ∈ fields :=
      htrusted.placed.valueOf_eq_some_iff rules hname
    obtain ⟨path, hpath, hparsed⟩ := hparses.target
    have hheaders : (ofSibling (kept (rules.sorted fields))).headers = headers := htrusted.exact.symm
    refine ⟨_, gatherRequest_eq_ok_iff.mpr ⟨⟨htrusted.placed, hparses.delivered⟩, rfl⟩, ?_⟩
    refine assembleRequest_eq_ok_iff.mpr ⟨method, path, authority, pathAndQuery,
      (hfound (by decide)).mpr htrusted.methodField, (hfound (by decide)).mpr hpath,
      (hfound (by decide)).mpr htrusted.authorityField, hparsed, hagrees,
      fun scheme hscheme => htrusted.schemeField scheme ((hfound (by decide)).mp hscheme), hparses.token, hconnect,
      hparses.valid, htrusted.userinfo, htrusted.asterisk, hparses.uri, ?_, ?_⟩
    · rw [hheaders]
      exact hparses.fits
    · rw [hheaders]

/-- A request that is accepted is what its fields say. Where its `host` fields say one thing only, it is accepted exactly
if that is what `:authority` says, every part of it parses, and it is no `CONNECT`. -/
theorem requestHead_trusted (fields : List Field) :
    (∀ parts, requestHead fields = .ok parts → ∃ method authority pathAndQuery headers,
      parts = partsOf method (ascii "http") authority pathAndQuery headers ∧
      Trusted fields method authority pathAndQuery headers ∧ Parses fields method authority pathAndQuery headers) ∧
    ((∀ host ∈ hosts fields, ∀ other ∈ hosts fields, host = other) → ∀ method authority pathAndQuery headers,
      requestHead fields = .ok (partsOf method (ascii "http") authority pathAndQuery headers) ↔
        Trusted fields method authority pathAndQuery headers ∧ Parses fields method authority pathAndQuery headers ∧
          method ≠ connect ∧ ∀ host ∈ hosts fields, host = authority) := by
  constructor
  · intro parts h
    obtain ⟨method, authority, pathAndQuery, headers, hparts, htrusted, hparses, -⟩ := requestHead_eq_ok_iff.mp h
    exact ⟨method, authority, pathAndQuery, headers, hparts, htrusted, hparses⟩
  · intro hsame method authority pathAndQuery headers
    rw [requestHead_eq_ok_iff]
    constructor
    · rintro ⟨_, _, _, _, hparts, htrusted, hparses, hconnect, hlast⟩
      cases hparts
      refine ⟨htrusted, hparses, hconnect, fun host hhost => ?_⟩
      obtain ⟨last, hfound⟩ := Option.isSome_iff_exists.mp (List.getLast?_isSome.mpr (List.ne_nil_of_mem hhost))
      exact (hsame host hhost last (List.mem_of_getLast? hfound)).trans (hlast last hfound)
    · rintro ⟨htrusted, hparses, hconnect, hhosts⟩
      exact ⟨_, _, _, _, rfl, htrusted, hparses, hconnect, fun host hlast => hhosts host (List.mem_of_getLast? hlast)⟩

end Requests

/-! ## Requests on the line -/

section Plain
attribute [local instance] plain

def requestFor (method authority : String) (hosts : List String) : List Field :=
  [(ascii ":method", ascii method), (ascii ":authority", ascii authority), (ascii ":path", ascii "/")] ++
    hosts.map fun host => (ascii "Host", ascii host)

/-- That a list is accepted says nothing about a `host` field before the last one, and a `CONNECT` is refused however
well its fields are placed and parsed. -/
theorem not_exactly_trusted :
    (¬ ∀ fields method authority pathAndQuery headers,
      requestHead fields = .ok (partsOf method (ascii "http") authority pathAndQuery headers) →
        ∀ host ∈ hosts fields, host = authority) ∧
    ¬ ∀ fields method authority pathAndQuery headers,
      Trusted fields method authority pathAndQuery headers → (∀ host ∈ hosts fields, host = authority) →
      Parses fields method authority pathAndQuery headers → ∃ parts, requestHead fields = .ok parts := by
  constructor
  · intro h
    have haccepted : requestHead (requestFor "GET" "a" ["b", "a"]) =
        .ok (partsOf (ascii "GET") (ascii "http") (ascii "a") (ascii "/") []) := by decide +kernel
    exact absurd (h _ _ _ _ _ haccepted (ascii "b") (by decide)) (by decide)
  · intro h
    have htrusted : Trusted (requestFor "CONNECT" "a" []) connect (ascii "a") (ascii "/") [] := by
      constructor
      case placed => exact ⟨by decide, by decide, by decide⟩
      case methodField => decide
      case schemeField => simp +decide [requestFor]
      case authorityField => decide
      case userinfo => decide
      case asterisk => decide
      case exact => decide
    have hparses : Parses (requestFor "CONNECT" "a" []) connect (ascii "a") (ascii "/") [] :=
      ⟨by decide, by decide, ⟨ascii "/", by decide, by decide⟩, by decide, rfl, rfl⟩
    obtain ⟨parts, hparts⟩ := h _ _ _ _ _ htrusted (by decide) hparses
    have hrefused : (requestHead (requestFor "CONNECT" "a" [])).toOption = none := by decide +kernel
    rw [hparts] at hrefused
    cases hrefused

end Plain

end Ngnet.Http2RequestHeads
