import Ngnet.Http2Heads
import Ngnet.Http3HeadRoundTrips

/-!
# Heads of HTTP/2 that are sent and received

The crate `ngnet-h2`, `http/head.rs` and `header.rs`: what `request_headers`, `response_headers` and `trailer_fields`
agree to send, what the submission makes of it, and what `request_head`, `response_head` and `trailers` read back. The
laws of the crate `http` are those of the HTTP/3 crate, with how it spells names and values.
-/

namespace Ngnet.Http2HeadRoundTrips
open QmuxVarints HeaderMaps Http2Heads
open Http3Heads (Http Field HeaderMap Uri RequestParts ResponseParts ascii isPseudo isNameByte isValueByte isBlank
  isUppercase nameBody toLower eqIgnoreCase connect forbidden pathOf statusText lawfulBEq_bytes)
open Http3HeadRoundTrips (Lawful IsHeaderMap IsRequest IsResponse sentAuthority sentPath target_sent
  toLower_of_isNameByte plain_lawful plainHeaders optionsAsterisk someResponse isHeaderMap_plain
  isRequest_optionsAsterisk)

/-- How the crate `http` spells names and values. -/
structure Spelled [Http] : Prop where
  name : ∀ name, Http.headerName name = some name → name ≠ [] ∧ ∀ byte ∈ name, isNameByte byte = true
  value : ∀ value, Http.headerValue value = true → ∀ byte ∈ value, isValueByte byte = true

/-! ## Fields that a submission accepts -/

variable {name : Bytes}

theorem validateFields_cons {value : Bytes} {rest : OwnedHeaders} {seen : Bool} :
    validateFields ((name, value) :: rest) seen = .ok () ↔
      validateField name value seen = .ok () ∧ validateFields rest (seen || !isPseudo name) = .ok () := by
  rw [validateFields]
  cases validateField name value seen with
  | error detail => simp [bind, Except.bind]
  | ok checked => cases checked; simp [bind, Except.bind]

theorem nameBody_of_regular (h : isPseudo name = false) : nameBody name = name := by
  cases name with
  | nil => rfl
  | cons byte rest =>
    have hne : byte ≠ 0x3a := by
      rintro rfl
      cases h
    rw [nameBody]
    rintro _ ⟨⟩
    exact hne rfl

theorem lowercase_of_validateField {value : Bytes} {seen : Bool} (h : validateField name value seen = .ok ())
    (hregular : isPseudo name = false) : name.map toLower = name := by
  rw [validateField, nameBody_of_regular hregular] at h
  split at h
  · cases h
  split at h
  · cases h
  split at h
  · split at h <;> cases h
  rename_i hfind
  have hbytes : ∀ byte ∈ name, toLower byte = byte := by
    intro byte hbyte
    have hname := List.find?_eq_none.mp hfind byte hbyte
    exact toLower_of_isNameByte (by simpa [isTokenByte] using hname)
  exact (List.map_congr_left hbytes).trans (List.map_id _)

theorem validateField_of_validate {headers : OwnedHeaders} (h : validate headers = .ok ()) :
    ∀ field ∈ headers, ∃ seen, validateField field.1 field.2 seen = .ok () := by
  have hfields : ∀ (fields : OwnedHeaders) (seen : Bool), validateFields fields seen = .ok () →
      ∀ field ∈ fields, ∃ seen, validateField field.1 field.2 seen = .ok () := by
    intro fields
    induction fields with
    | nil => simp
    | cons field fields ih =>
      intro seen hfields other hother
      obtain ⟨hfield, hrest⟩ := validateFields_cons.mp hfields
      rcases List.mem_cons.mp hother with rfl | hother
      · exact ⟨seen, hfield⟩
      · exact ih _ hrest other hother
  rw [validate] at h
  split at h
  · cases h
  · exact hfields headers false h

/-- Neither the first byte of a value is blank nor the last. -/
def Trimmed (value : Bytes) : Prop := (value.head?.any isBlank || value.getLast?.any isBlank) = false

section Spelling
variable [Http]

theorem validateField_of_spelled (spelled : Spelled) {name value : Bytes} (hname : Http.headerName name = some name)
    (hregular : isPseudo name = false) (hvalue : Http.headerValue value = true) (htrimmed : Trimmed value) (seen : Bool) :
    validateField name value seen = .ok () := by
  obtain ⟨hne, hbytes⟩ := spelled.name name hname
  have hcolon : name ≠ [0x3a] := by
    rintro rfl
    cases hregular
  have hfind : name.find? (fun byte => !isTokenByte byte) = none :=
    List.find?_eq_none.mpr fun byte hbyte => by simpa [isTokenByte] using hbytes byte hbyte
  have hany : value.any (fun byte => !isValueByte byte) = false :=
    List.any_eq_false.mpr fun byte hbyte => by simpa using spelled.value value hvalue byte hbyte
  rw [validateField, if_neg hne, if_neg hcolon, nameBody_of_regular hregular, hfind]
  simp only [hregular, Bool.false_eq_true, false_and, if_false, hany]
  rw [if_neg (by simpa [Trimmed] using htrimmed)]

theorem validateFields_of_spelled (spelled : Spelled) {fields : OwnedHeaders}
    (h : ∀ field ∈ fields, Http.headerName field.1 = some field.1 ∧ isPseudo field.1 = false ∧
      Http.headerValue field.2 = true ∧ Trimmed field.2) (seen : Bool) : validateFields fields seen = .ok () := by
  induction fields generalizing seen with
  | nil => rfl
  | cons field fields ih =>
    obtain ⟨hname, hregular, hvalue, htrimmed⟩ := h field (by simp)
    refine validateFields_cons.mpr ⟨validateField_of_spelled spelled hname hregular hvalue htrimmed seen, ?_⟩
    exact ih (fun other hother => h other (by simp [hother])) _

end Spelling

/-! ## Requests -/

def sentScheme (parts : RequestParts) : Bytes := parts.uri.scheme.getD (ascii "http")

def sentPseudo (parts : RequestParts) (authority : Bytes) : List Field :=
  [(ascii ":method", parts.method), (ascii ":scheme", sentScheme parts), (ascii ":authority", authority),
    (ascii ":path", sentPath parts)]

theorem requestFields_cons {name value : Bytes} {rest : List Field} :
    requestFields ((name, value) :: rest) =
      if name = ascii "host" then requestFields rest
      else if name ∈ forbidden then .error (protocol "this field is connection-specific and HTTP/2 forbids it")
      else (requestFields rest).map ((name, value) :: ·) := rfl

theorem requestFields_ok {headers fields : List Field} (h : requestFields headers = .ok fields) :
    fields = headers.filter (·.1 ≠ ascii "host") := by
  induction headers generalizing fields with
  | nil =>
    cases h
    rfl
  | cons field headers ih =>
    obtain ⟨name, value⟩ := field
    rw [requestFields_cons] at h
    split at h
    · next hhost => simpa [hhost] using ih h
    next hhost =>
    split at h
    · cases h
    cases hrest : requestFields headers with
    | error error => simp [hrest, Except.map] at h
    | ok rest =>
      obtain rfl : (name, value) :: rest = fields := by simpa [hrest, Except.map] using h
      simp [hhost, ih hrest]

theorem requestHeaders_ok {parts : RequestParts} {fields : OwnedHeaders} (h : requestHeaders parts = .ok fields) :
    parts.method ≠ connect ∧ ∃ authority, sentAuthority parts = some authority ∧
      fields = sentPseudo parts authority ++ (without (ascii "host") parts.headers).iter ∧
      validate fields = .ok () := by
  rw [requestHeaders] at h
  split at h
  · cases h
  next hconnect =>
  split at h
  · cases h
  next authority hauthority =>
  split at h
  · cases h
  next headers hheaders =>
  obtain ⟨rfl, hvalid⟩ := validate_of_validated h
  obtain rfl := requestFields_ok hheaders
  refine ⟨hconnect, authority, hauthority, ?_, hvalid⟩
  rw [iter_without]
  rfl

theorem isHost_sent {parts : RequestParts} {fields : OwnedHeaders} (hvalid : validate fields = .ok ()) {field : Field}
    (hmem : field ∈ fields) (hregular : isPseudo field.1 = false)
    (hfield : field ∈ (without (ascii "host") parts.headers).iter) : eqIgnoreCase field.1 (ascii "host") = false := by
  obtain ⟨seen, hvalid⟩ := validateField_of_validate hvalid field hmem
  have hne : field.1 ≠ ascii "host" := by
    rw [iter_without] at hfield
    simpa using List.of_mem_filter hfield
  have hlower : (ascii "host").map toLower = ascii "host" := by decide
  rw [eqIgnoreCase, lowercase_of_validateField hvalid hregular, hlower]
  exact beq_eq_false_iff_ne.mpr hne

section Sent
variable [Http]

/-- The request that is sent, as a handler should be given it. -/
def sent (parts : RequestParts) (authority : Bytes) : RequestParts :=
  ⟨parts.method, ⟨some (ascii "http"), some authority, some (sentPath parts)⟩, without (ascii "host") parts.headers⟩

/-- What a peer of the same crate serves. -/
structure Carried (parts : RequestParts) (authority : Bytes) : Prop where
  cleartext : sentScheme parts = ascii "http"
  valid : Http.authority authority = true
  userinfo : 0x40 ∉ authority
  target : pathOf (sentPath parts) ≠ ascii "*"

variable {fields : List Field}

theorem gatherRequest_regular (h : ∀ field ∈ fields, isPseudo field.1 = false ∧
      eqIgnoreCase field.1 (ascii "host") = false ∧ Http.headerName field.1 = some field.1 ∧
      Http.headerValue field.2 = true) (head : RequestHead) :
    gatherRequest fields head = .ok { head with
      seenField := head.seenField || !fields.isEmpty
      headers := fields.foldl (fun headers field => headers.append field.1 field.2) head.headers } := by
  induction fields generalizing head with
  | nil => simp [gatherRequest]
  | cons field fields ih =>
    obtain ⟨hregular, hhost, hname, hvalue⟩ := h field (by simp)
    rw [gatherRequest]
    simp [hregular, RequestHead.regular, hhost, hname, hvalue, ih fun other hother => h other (by simp [hother])]

variable {parts : RequestParts} {authority : Bytes}

theorem gatherRequest_pseudo :
    gatherRequest (sentPseudo parts authority ++ fields) {} = gatherRequest fields
      { method := some parts.method, scheme := some (sentScheme parts), authority := some authority
        path := some (sentPath parts) } := by
  have hpseudo : isPseudo (ascii ":method") = true ∧ isPseudo (ascii ":scheme") = true ∧
      isPseudo (ascii ":authority") = true ∧ isPseudo (ascii ":path") = true := by decide
  have hnames : ascii ":scheme" ≠ ascii ":method" ∧ ascii ":authority" ≠ ascii ":method" ∧
      ascii ":path" ≠ ascii ":method" ∧ ascii ":authority" ≠ ascii ":scheme" ∧ ascii ":path" ≠ ascii ":scheme" ∧
      ascii ":path" ≠ ascii ":authority" := by decide
  simp [sentPseudo, gatherRequest, RequestHead.pseudo, fill, hpseudo, hnames, Except.map]

/-- What `request_head` gathers from a request that was sent. -/
def gathered (parts : RequestParts) (authority : Bytes) : RequestHead where
  method := some parts.method
  scheme := some (sentScheme parts)
  authority := some authority
  path := some (sentPath parts)
  seenField := !(without (ascii "host") parts.headers).iter.isEmpty
  headers := without (ascii "host") parts.headers

theorem gatherRequest_sent (laws : Lawful) (hparts : IsRequest parts)
    (hvalid : validate (sentPseudo parts authority ++ (without (ascii "host") parts.headers).iter) = .ok ()) :
    gatherRequest (sentPseudo parts authority ++ (without (ascii "host") parts.headers).iter) {} =
      .ok (gathered parts authority) := by
  have hheaders := hparts.headers.without laws (ascii "host")
  have hmap : (without (ascii "host") parts.headers).iter.foldl (fun headers field =>
      HeaderMap.append headers field.1 field.2) [] = without (ascii "host") parts.headers := ofFields_iter hheaders.wellFormed
  rw [gatherRequest_pseudo, gatherRequest_regular, hmap]
  · rfl
  · intro field hfield
    obtain ⟨hname, hvalue⟩ := hheaders.field hfield
    have hregular := laws.unmarked _ _ hname
    exact ⟨hregular, isHost_sent hvalid (List.mem_append_right _ hfield) hregular hfield, hname, hvalue⟩

theorem assembleRequest_gathered (laws : Lawful) (hparts : IsRequest parts)
    (hconnect : parts.method ≠ connect) (h : Carried parts authority) :
    assembleRequest (gathered parts authority) = .ok (sent parts authority) := by
  obtain ⟨hscheme, hvalid, huserinfo, hasterisk⟩ := h
  have htarget := target_sent laws hparts
  have hbuilds := laws.builds (ascii "http") authority (sentPath parts) (by decide) hvalid htarget
  have hfits := (hparts.headers.without laws (ascii "host")).fits
  simp [assembleRequest, gathered, hscheme, hparts.token, hconnect, hvalid, huserinfo, htarget, hasterisk, hbuilds, hfits,
    sent, bind, Except.bind]

theorem carried_of_assembleRequest (laws : Lawful) (hparts : IsRequest parts)
    {received : RequestParts} (h : assembleRequest (gathered parts authority) = .ok received) :
    Carried parts authority := by
  have htarget := target_sent laws hparts
  simp only [assembleRequest, gathered, bind, Except.bind, Option.elim_some, Option.getD_some, Option.any_none,
    Bool.false_eq_true, if_false, htarget] at h
  constructor
  case cleartext =>
    by_contra hscheme
    simp [hscheme] at h
  case valid =>
    by_contra hinvalid
    simp only [hinvalid, not_false_eq_true, if_true] at h
    split_ifs at h
  case userinfo =>
    intro huserinfo
    simp only [huserinfo, if_true] at h
    split_ifs at h
  case target =>
    intro hasterisk
    simp only [hasterisk, if_true] at h
    split_ifs at h

theorem requestHead_sent (laws : Lawful) (hparts : IsRequest parts) {fields : OwnedHeaders}
    (h : requestHeaders parts = .ok fields) : validate fields = .ok () ∧ ∃ authority, sentAuthority parts = some authority ∧
      (Carried parts authority → requestHead fields = .ok (sent parts authority)) ∧
      (¬ Carried parts authority → ∀ received, requestHead fields ≠ .ok received) := by
  obtain ⟨hconnect, authority, hauthority, rfl, hvalid⟩ := requestHeaders_ok h
  refine ⟨hvalid, authority, hauthority, ?_, ?_⟩
  · intro hcarried
    rw [requestHead, gatherRequest_sent laws hparts hvalid]
    exact assembleRequest_gathered laws hparts hconnect hcarried
  · intro hrefused received hreceived
    rw [requestHead, gatherRequest_sent laws hparts hvalid] at hreceived
    exact hrefused (carried_of_assembleRequest laws hparts hreceived)

/-! ## Responses and trailers -/

theorem gatherResponse_sent (h : ∀ field ∈ fields, isPseudo field.1 = false ∧
      Http.headerName field.1 = some field.1 ∧ Http.headerValue field.2 = true) (status : ℕ) (headers : HeaderMap) :
    gatherResponse fields (some status) headers =
      .ok (some status, fields.foldl (fun headers field => headers.append field.1 field.2) headers) := by
  induction fields generalizing headers with
  | nil => rfl
  | cons field fields ih =>
    obtain ⟨hregular, hname, hvalue⟩ := h field (by simp)
    have hrest := ih (fun other hother => h other (by simp [hother])) (headers.append field.1 field.2)
    simp [gatherResponse, hregular, hname, hvalue, hrest]

theorem gatherTrailers_sent (h : ∀ field ∈ fields, isPseudo field.1 = false ∧
      Http.headerName field.1 = some field.1 ∧ Http.headerValue field.2 = true) (map : HeaderMap) :
    gatherTrailers fields map = .ok (fields.foldl (fun map field => map.append field.1 field.2) map) := by
  induction fields generalizing map with
  | nil => rfl
  | cons field fields ih =>
    obtain ⟨hregular, hname, hvalue⟩ := h field (by simp)
    have hrest := ih (fun other hother => h other (by simp [hother])) (map.append field.1 field.2)
    simp [gatherTrailers, hregular, hname, hvalue, hrest]

theorem regular_iter (laws : Lawful) {headers : HeaderMap} (hheaders : IsHeaderMap headers) : ∀ field ∈ headers.iter,
    isPseudo field.1 = false ∧ Http.headerName field.1 = some field.1 ∧ Http.headerValue field.2 = true := by
  intro field hfield
  obtain ⟨hname, hvalue⟩ := hheaders.field hfield
  exact ⟨laws.unmarked _ _ hname, hname, hvalue⟩

omit [Http] in
theorem regularFields_ok {detail : String} {headers : List Field} (h : regularFields detail headers = .ok fields) :
    fields = headers := by
  rw [regularFields] at h
  split at h <;> cases h
  rfl

theorem responseHead_sent (laws : Lawful) {parts : ResponseParts} (hparts : IsResponse parts) {fields : OwnedHeaders}
    (h : responseHeaders parts = .ok fields) : validate fields = .ok () ∧ responseHead fields = .ok parts := by
  refine ⟨validate_responseHeaders h, ?_⟩
  rw [responseHeaders] at h
  cases hregular : regularFields "this field is connection-specific and HTTP/2 forbids it" parts.headers.iter with
  | error error => simp [hregular, bind, Except.bind] at h
  | ok headers =>
    obtain rfl := regularFields_ok hregular
    simp only [hregular, bind, Except.bind] at h
    obtain ⟨rfl, -⟩ := validate_of_validated h
    have hmap : parts.headers.iter.foldl (fun headers field => HeaderMap.append headers field.1 field.2) [] =
        parts.headers := ofFields_iter hparts.headers.wellFormed
    have hpseudo : isPseudo (ascii ":status") = true := by decide
    have hgather := gatherResponse_sent (regular_iter laws hparts.headers) parts.status []
    rw [hmap] at hgather
    simp [responseHead, gatherResponse, hpseudo, laws.status _ hparts.low hparts.high, hgather, hparts.headers.fits]

theorem trailers_sent (laws : Lawful) {map : HeaderMap} (hmap : IsHeaderMap map) {fields : OwnedHeaders}
    (h : trailerFields map = .ok fields) (hroom : fields.length ≤ headerMapRoom) : trailers fields = .ok (.ok map) := by
  obtain rfl := regularFields_ok h
  rw [trailers, if_neg (Nat.not_lt.mpr hroom), gatherTrailers_sent (regular_iter laws hmap)]
  have hback : map.iter.foldl (fun map field => HeaderMap.append map field.1 field.2) [] = map :=
    ofFields_iter hmap.wellFormed
  rw [hback]

theorem toTrailerNvVec_sent (laws : Lawful) (spelled : Spelled) {map : HeaderMap} (hmap : IsHeaderMap map)
    {fields : OwnedHeaders} (h : trailerFields map = .ok fields) (hne : map ≠ [])
    (htrimmed : ∀ field ∈ map.iter, Trimmed field.2) : toTrailerNvVec fields = .ok fields := by
  obtain rfl := regularFields_ok h
  have hregular := regular_iter laws hmap
  have hiter : map.iter ≠ [] := by
    obtain ⟨entry, rest, rfl⟩ := List.exists_cons_of_ne_nil hne
    obtain ⟨value, values, hvalues⟩ := List.exists_cons_of_ne_nil (hmap.wellFormed.values entry (by simp))
    simp [HeaderMap.iter, hvalues]
  have hvalid : validate map.iter = .ok () := by
    rw [validate, if_neg hiter]
    refine validateFields_of_spelled spelled (fun field hfield => ?_) false
    obtain ⟨hpseudo, hname, hvalue⟩ := hregular field hfield
    exact ⟨hname, hpseudo, hvalue, htrimmed field hfield⟩
  have hpseudo : map.iter.any (isPseudo ·.1) = false :=
    List.any_eq_false.mpr fun field hfield => by simp [(hregular field hfield).1]
  simp [toTrailerNvVec, hvalid, hpseudo, bind, Except.bind]

/-- Every head that this crate agrees to send is accepted by its submission, and comes back as it was, where a request
is for cleartext, of a valid authority that names no user, and of a target other than the asterisk; any other request
is refused. Trailers come back as they were; those that are not empty, and of whose values none is padded, are
accepted by their submission. -/
theorem heads_come_back (laws : Lawful) (spelled : Spelled) :
    (∀ parts fields, IsRequest parts → requestHeaders parts = .ok fields → validate fields = .ok () ∧
      ∃ authority, sentAuthority parts = some authority ∧
        (Carried parts authority → requestHead fields = .ok (sent parts authority)) ∧
        (¬ Carried parts authority → ∀ received, requestHead fields ≠ .ok received)) ∧
    (∀ parts fields, IsResponse parts → responseHeaders parts = .ok fields →
      validate fields = .ok () ∧ responseHead fields = .ok parts) ∧
    ∀ map fields, IsHeaderMap map → trailerFields map = .ok fields →
      (fields.length ≤ headerMapRoom → trailers fields = .ok (.ok map)) ∧
      (map ≠ [] → (∀ field ∈ map.iter, Trimmed field.2) → toTrailerNvVec fields = .ok fields) := by
  refine ⟨?_, ?_, ?_⟩
  · exact fun parts fields hparts h => requestHead_sent laws hparts h
  · exact fun parts fields hparts h => responseHead_sent laws hparts h
  · intro map fields hmap h
    exact ⟨trailers_sent laws hmap h, toTrailerNvVec_sent laws spelled hmap h⟩

end Sent

/-! ## Heads on the line -/

section Plain
attribute [local instance] Http3RequestHeads.plain

theorem plain_spelled : Spelled := by
  constructor
  case name =>
    intro name h
    simp only [Http.headerName] at h
    split at h
    · next hgood =>
      rw [Option.some.inj h] at hgood
      exact ⟨hgood.1, List.all_eq_true.mp hgood.2⟩
    · cases h
  case value =>
    intro value h byte hbyte
    simp only [Http.headerValue] at h
    exact List.all_eq_true.mp h byte hbyte

/-- A target that may be sent is refused. -/
theorem asterisk_comes_back_refused : ¬ ∀ parts fields, IsRequest parts → requestHeaders parts = .ok fields →
    ∃ authority, sentAuthority parts = some authority ∧ requestHead fields = .ok (sent parts authority) := by
  intro h
  have hsent : (requestHeaders optionsAsterisk).toOption.isSome = true := by decide +kernel
  cases hfields : requestHeaders optionsAsterisk with
  | error error => simp [hfields, Except.toOption] at hsent
  | ok fields =>
    obtain ⟨authority, -, hreceived⟩ := h _ _ isRequest_optionsAsterisk hfields
    have hrefused : ((requestHeaders optionsAsterisk).toOption.bind fun fields => (requestHead fields).toOption) = none := by
      decide +kernel
    simp [hfields, hreceived, Except.toOption] at hrefused

def someRequest : RequestParts :=
  { method := ascii "GET", uri := ⟨none, some (ascii "a"), some (ascii "/x?y")⟩,
    headers := plainHeaders [("accept", ["b", "c"]), ("host", ["d"])] }

theorem isRequest_plain : IsRequest someRequest :=
  ⟨by decide, by decide, by decide, isHeaderMap_plain (by decide)⟩

/-- A request, a response and trailers that come back. -/
theorem heads_come_back_plain :
    (∃ fields, requestHeaders someRequest = .ok fields ∧ requestHead fields = .ok (sent someRequest (ascii "a"))) ∧
    (∃ fields, responseHeaders someResponse = .ok fields ∧ responseHead fields = .ok someResponse) ∧
    ∃ fields, trailerFields someResponse.headers = .ok fields ∧ trailers fields = .ok (.ok someResponse.headers) ∧
      toTrailerNvVec fields = .ok fields := by
  obtain ⟨hrequest, hresponse, htrailers⟩ := heads_come_back plain_lawful plain_spelled
  have hvia : IsHeaderMap someResponse.headers := isHeaderMap_plain (by decide)
  have hfields : requestHeaders someRequest = .ok (sentPseudo someRequest (ascii "a") ++
      [(ascii "accept", ascii "b"), (ascii "accept", ascii "c")]) := by decide +kernel
  have hstatus : responseHeaders someResponse =
      .ok [(ascii ":status", ascii "204"), (ascii "via", ascii "b"), (ascii "via", ascii "c")] := by decide +kernel
  have htrailing : trailerFields someResponse.headers = .ok [(ascii "via", ascii "b"), (ascii "via", ascii "c")] := by
    decide +kernel
  obtain ⟨hback, hsubmitted⟩ := htrailers _ _ hvia htrailing
  refine ⟨⟨_, hfields, ?_⟩, ⟨_, hstatus, (hresponse _ _ ⟨by decide, by decide, hvia⟩ hstatus).2⟩,
    ⟨_, htrailing, hback (by decide), hsubmitted (by decide) ?_⟩⟩
  · obtain ⟨-, authority, hauthority, hreceived, -⟩ := hrequest _ _ isRequest_plain hfields
    obtain rfl : authority = ascii "a" := by simpa [sentAuthority, someRequest] using hauthority.symm
    exact hreceived ⟨by decide, by decide, by decide, by decide⟩
  · unfold Trimmed
    decide

end Plain

end Ngnet.Http2HeadRoundTrips
