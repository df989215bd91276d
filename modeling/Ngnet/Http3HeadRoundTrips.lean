import Ngnet.Http3RequestHeads

/-!
# Heads that are sent and received

The crate `ngnet-h3`, `http/head.rs`: what `request_fields`, `response_fields` and `trailer_fields` agree to send, and
what `request_head`, `response_head` and `trailers` make of it. What a value of a type of the crate `http` satisfies is
stated with the functions of the class `Http`, which read what the crate has written.
-/

namespace Ngnet.Http3HeadRoundTrips
open QmuxVarints Http3Heads HeaderMaps FieldSections Http3RequestHeads

/-! ## Heads of the crate `http` -/

section Types
variable [Http]

/-- How the crate `http` reads what it has written, and that a URI can be built of what it has read. -/
structure Lawful : Prop where
  unmarked : ∀ name written, Http.headerName name = some written → isPseudo name = false
  status : ∀ status, 100 ≤ status → status < 1000 → Http.statusCode (statusText status) = some status
  root : Http.pathAndQuery (ascii "/") = some (ascii "/")
  builds : ∀ scheme authority pathAndQuery, schemeIsSupported scheme = true → Http.authority authority = true →
    Http.pathAndQuery pathAndQuery = some pathAndQuery → Http.uri scheme authority pathAndQuery = true
  fewer : ∀ name headers, Http.fits headers = true → Http.fits (without name headers) = true

structure IsHeaderMap (headers : HeaderMap) : Prop where
  wellFormed : WellFormed headers
  names : ∀ entry ∈ headers, Http.headerName entry.1 = some entry.1
  values : ∀ entry ∈ headers, ∀ value ∈ entry.2, Http.headerValue value = true
  fits : Http.fits headers = true

structure IsRequest (parts : RequestParts) : Prop where
  token : Http.method parts.method = true
  authority : ∀ authority, parts.uri.authority = some authority → Http.authority authority = true
  target : ∀ pathAndQuery, parts.uri.pathAndQuery = some pathAndQuery →
    Http.pathAndQuery pathAndQuery = some pathAndQuery
  headers : IsHeaderMap parts.headers

structure IsResponse (parts : ResponseParts) : Prop where
  low : 100 ≤ parts.status
  high : parts.status < 1000
  headers : IsHeaderMap parts.headers

theorem IsHeaderMap.field {headers : HeaderMap} (h : IsHeaderMap headers) {field : Field} (hfield : field ∈ headers.iter) :
    Http.headerName field.1 = some field.1 ∧ Http.headerValue field.2 = true := by
  obtain ⟨entry, hentry, hmem⟩ := List.mem_flatMap.mp hfield
  obtain ⟨value, hvalue, rfl⟩ := List.mem_map.mp hmem
  exact ⟨h.names entry hentry, h.values entry hentry value hvalue⟩

theorem IsHeaderMap.without (laws : Lawful) {headers : HeaderMap} (h : IsHeaderMap headers) (name : Bytes) :
    IsHeaderMap (without name headers) := by
  constructor
  case wellFormed => exact wellFormed_without h.wellFormed name
  case names => exact fun entry hentry => h.names entry (List.mem_of_mem_filter hentry)
  case values => exact fun entry hentry => h.values entry (List.mem_of_mem_filter hentry)
  case fits => exact laws.fewer name headers h.fits

end Types

/-! ## Sending -/

theorem toLower_of_isNameByte {byte : UInt8} (h : isNameByte byte = true) : toLower byte = byte := by
  have hall : ∀ n : Fin 256, isNameByte (UInt8.ofFin n) = true → toLower (UInt8.ofFin n) = UInt8.ofFin n := by decide +kernel
  exact hall byte.toFin h

theorem lowercase_of_validateName {name : Bytes} (h : validateName name = .ok ()) (hregular : isPseudo name = false) :
    name.map toLower = name := by
  have hbody : nameBody name = name := by
    cases name with
    | nil => rfl
    | cons byte rest =>
      have hne : byte ≠ 0x3a := by
        rintro rfl
        cases hregular
      rw [nameBody]
      rintro _ ⟨⟩
      exact hne rfl
  rw [validateName, hbody] at h
  split at h
  · cases h
  split at h
  · rename_i hfind
    have hbytes : ∀ byte ∈ name, toLower byte = byte := by
      intro byte hbyte
      have hname := List.find?_eq_none.mp hfind byte hbyte
      exact toLower_of_isNameByte (by simpa using hname)
    exact (List.map_congr_left hbytes).trans (List.map_id _)
  · split at h
    · cases h
    · cases h

theorem validateName_of_views {fields : OwnedFields} {headers : List Header} (h : views fields = .ok headers) :
    ∀ field ∈ fields, validateName field.1 = .ok () := by
  induction fields generalizing headers with
  | nil => simp
  | cons field fields ih =>
    obtain ⟨name, value⟩ := field
    rw [views] at h
    split at h
    · cases h
    rename_i header hheader
    obtain ⟨rest, hrest, -⟩ : ∃ rest, views fields = .ok rest ∧ header :: rest = headers := by
      cases hviews : views fields with
      | error error => simp [hviews, Except.map] at h
      | ok rest => exact ⟨rest, rfl, by simpa [hviews, Except.map] using h⟩
    intro other hother
    rcases List.mem_cons.mp hother with rfl | hother
    · rw [Header.new] at hheader
      split at hheader
      · rename_i hname hvalue
        exact hname
      · cases hheader
      · cases hheader
    · exact ih hrest other hother

theorem requestHeaderFields_ok {headers fields : List Field} (h : requestHeaderFields headers = .ok fields) :
    fields = headers.filter (·.1 ≠ ascii "host") ∧ ∀ field ∈ fields, isPermitted field.1 field.2 = true := by
  induction headers generalizing fields with
  | nil =>
    cases h
    simp
  | cons field headers ih =>
    obtain ⟨name, value⟩ := field
    rw [requestHeaderFields] at h
    split at h
    · rename_i hhost
      simpa [hhost] using ih h
    rename_i hhost
    split at h
    · cases h
    rename_i hte
    split at h
    · cases h
    rename_i hforbidden
    cases hrest : requestHeaderFields headers with
    | error error => simp [hrest, Except.map] at h
    | ok rest =>
      obtain ⟨hfilter, hpermitted⟩ := ih hrest
      obtain rfl : (name, value) :: rest = fields := by simpa [hrest, Except.map] using h
      refine ⟨by simp [hhost, hfilter], fun other hother => ?_⟩
      rcases List.mem_cons.mp hother with rfl | hother
      · rw [isPermitted]
        split
        · rename_i heq
          have hpermits : name = ascii "te" → teIsPermitted value = true := by simpa using hte
          exact hpermits heq
        · rename_i hne
          have hallowed : name ≠ ascii "te" → name ∉ forbidden := by simpa using hforbidden
          exact decide_eq_true (hallowed hne)
      · exact hpermitted other hother

/-- What is sent as `:authority`. -/
def sentAuthority (parts : RequestParts) : Option Bytes := parts.uri.authority <|> parts.headers.get (ascii "host")

def sentScheme (parts : RequestParts) : Bytes := parts.uri.scheme.getD (ascii "https")

def sentPath (parts : RequestParts) : Bytes := parts.uri.pathAndQuery.getD (ascii "/")

def sentPseudo (parts : RequestParts) (authority : Bytes) : List Field :=
  [(ascii ":method", parts.method), (ascii ":scheme", sentScheme parts), (ascii ":authority", authority),
    (ascii ":path", sentPath parts)]

theorem isPseudo_sentPseudo {parts : RequestParts} {authority : Bytes} :
    ∀ field ∈ sentPseudo parts authority, isPseudo field.1 = true ∧ field.1 ∈ pseudoNames := by
  simp only [sentPseudo, List.forall_mem_cons]
  decide

theorem requestFields_ok {parts : RequestParts} {fields : OwnedFields} (h : requestFields parts = .ok fields) :
    parts.method ≠ connect ∧ schemeIsSupported (sentScheme parts) = true ∧ ∃ authority, sentAuthority parts = some authority ∧
      fields = sentPseudo parts authority ++ (without (ascii "host") parts.headers).iter ∧
      ∀ field ∈ (without (ascii "host") parts.headers).iter,
        isPermitted field.1 field.2 = true ∧ validateName field.1 = .ok () := by
  rw [requestFields] at h
  split at h
  · cases h
  rename_i hconnect
  dsimp only at h
  split at h
  · cases h
  rename_i hscheme
  split at h
  · cases h
  rename_i authority hauthority
  split at h
  · cases h
  rename_i headers hheaders
  obtain ⟨rfl, headers', hviews⟩ := views_of_validated h
  obtain ⟨hfilter, hpermitted⟩ := requestHeaderFields_ok hheaders
  rw [iter_without, ← hfilter]
  have hsupported : schemeIsSupported (parts.uri.scheme.getD (ascii "https")) = true := by simpa using hscheme
  refine ⟨hconnect, hsupported, authority, hauthority, rfl, fun field hfield => ⟨hpermitted field hfield, ?_⟩⟩
  exact validateName_of_views hviews field (List.mem_append_right _ hfield)

/-! ## What comes back of a request -/

section Requests
variable [Http]

theorem deliver_sent (laws : Lawful) {headers : HeaderMap} (hheaders : IsHeaderMap headers) {field : Field}
    (hfield : field ∈ (without (ascii "host") headers).iter) (hpermitted : isPermitted field.1 field.2 = true)
    (hname : validateName field.1 = .ok ()) :
    isPseudo field.1 = false ∧ isHost field.1 = false ∧ deliver field.1 field.2 = some field := by
  obtain ⟨hheader, hvalue⟩ := (hheaders.without laws (ascii "host")).field hfield
  have hregular := laws.unmarked _ _ hheader
  refine ⟨hregular, ?_, ?_⟩
  · have hne : field.1 ≠ ascii "host" := by
      rw [iter_without] at hfield
      simpa using List.of_mem_filter hfield
    have hlower : (ascii "host").map toLower = ascii "host" := by decide
    rw [isHost, eqIgnoreCase, lowercase_of_validateName hname hregular, hlower]
    exact beq_eq_false_iff_ne.mpr hne
  · rw [deliver, hheader, Option.bind_some, hpermitted, hvalue]
    rfl

/-- The request that is sent, as a handler should be given it. -/
def sent (parts : RequestParts) (authority : Bytes) : RequestParts :=
  partsOf parts.method (sentScheme parts) authority (sentPath parts) (without (ascii "host") parts.headers)

section Placed
variable {parts : RequestParts} {authority : Bytes} {headers : List Field}

variable (hheaders : ∀ field ∈ headers,
  isPseudo field.1 = false ∧ isHost field.1 = false ∧ deliver field.1 field.2 = some field)

include hheaders

theorem pseudoFields_sent : rules.pseudoFields (sentPseudo parts authority ++ headers) = sentPseudo parts authority := by
  have hnone : headers.filter (rules.isPseudo ·.1) = [] :=
    List.filter_eq_nil_iff.mpr fun field hfield => by simp [rules, (hheaders field hfield).1]
  have hall : (sentPseudo parts authority).filter (rules.isPseudo ·.1) = sentPseudo parts authority :=
    List.filter_eq_self.mpr fun field hfield => (isPseudo_sentPseudo field hfield).1
  rw [Rules.pseudoFields, List.filter_append, hnone, hall, List.append_nil]

theorem others_sent : rules.others (sentPseudo parts authority ++ headers) = headers := by
  have hnone : (sentPseudo parts authority).filter (fun field => !rules.isPseudo field.1 && !rules.isAside field.1) = [] :=
    List.filter_eq_nil_iff.mpr fun field hfield => by simp [rules, (isPseudo_sentPseudo field hfield).1]
  have hall : headers.filter (fun field => !rules.isPseudo field.1 && !rules.isAside field.1) = headers :=
    List.filter_eq_self.mpr fun field hfield => by simp [rules, (hheaders field hfield).1, (hheaders field hfield).2.1]
  rw [Rules.others, List.filter_append, hnone, hall, List.nil_append]

theorem hosts_sent : hosts (sentPseudo parts authority ++ headers) = [] := by
  rw [hosts, Rules.asides, List.map_eq_nil_iff, List.filter_eq_nil_iff]
  intro field hfield
  rcases List.mem_append.mp hfield with hmem | hmem
  · simp [rules, (isPseudo_sentPseudo field hmem).1]
  · simp [rules, (hheaders field hmem).2.1]

theorem wellPlaced_sent : rules.WellPlaced (sentPseudo parts authority ++ headers) := by
  constructor
  · refine List.pairwise_append.mpr ⟨?_, ?_, ?_⟩
    · exact List.pairwise_of_forall_mem_list fun before hbefore _ _ _ => (isPseudo_sentPseudo before hbefore).1
    · refine List.pairwise_of_forall_mem_list fun _ _ behind hbehind hpseudo => ?_
      exact nomatch (hheaders behind hbehind).1.symm.trans hpseudo
    · exact fun before hbefore _ _ _ => (isPseudo_sentPseudo before hbefore).1
  · intro field hfield hpseudo
    rcases List.mem_append.mp hfield with hmem | hmem
    · exact (isPseudo_sentPseudo field hmem).2
    · exact nomatch (hheaders field hmem).1.symm.trans hpseudo
  · rw [pseudoFields_sent hheaders]
    show [ascii ":method", ascii ":scheme", ascii ":authority", ascii ":path"].Nodup
    decide

theorem path_of_mem {path : Bytes} (h : (ascii ":path", path) ∈ sentPseudo parts authority ++ headers) :
    path = sentPath parts := by
  rcases List.mem_append.mp h with hmem | hmem
  · simpa +decide [sentPseudo] using hmem
  · cases (hheaders _ hmem).1

end Placed

theorem target_sent (laws : Lawful) {parts : RequestParts} (hparts : IsRequest parts) :
    Http.pathAndQuery (sentPath parts) = some (sentPath parts) := by
  rw [sentPath]
  cases htarget : parts.uri.pathAndQuery with
  | none => exact laws.root
  | some pathAndQuery => exact hparts.target pathAndQuery htarget

theorem guarded_sent (laws : Lawful) {parts : RequestParts} (hparts : IsRequest parts) {authority : Bytes}
    (huserinfo : 0x40 ∉ authority)
    (hfields : ∀ field ∈ (without (ascii "host") parts.headers).iter,
      isPseudo field.1 = false ∧ isHost field.1 = false ∧ deliver field.1 field.2 = some field) :
    Guarded (sentPseudo parts authority ++ (without (ascii "host") parts.headers).iter) parts.method (sentScheme parts)
      authority (sentPath parts) (without (ascii "host") parts.headers) := by
  have hdelivered : ((without (ascii "host") parts.headers).iter.filterMap fun field => deliver field.1 field.2) =
      (without (ascii "host") parts.headers).iter := by
    rw [← List.filterMap_some (l := (without (ascii "host") parts.headers).iter), List.filterMap_filterMap]
    exact List.filterMap_congr fun field hfield => (hfields field hfield).2.2
  have hexact : without (ascii "host") parts.headers = ofFields ((rules.others (sentPseudo parts authority ++
      (without (ascii "host") parts.headers).iter)).filterMap fun field => deliver field.1 field.2) := by
    rw [others_sent hfields, hdelivered, ofFields_iter (hparts.headers.without laws _).wellFormed]
  constructor
  case placed => exact wellPlaced_sent hfields
  case methodField => exact List.mem_append_left _ (by simp [sentPseudo])
  case schemeField => exact .inl (List.mem_append_left _ (by simp [sentPseudo]))
  case authorityField => exact .inl (List.mem_append_left _ (by simp [sentPseudo]))
  case userinfo => exact huserinfo
  case pathField => exact ⟨sentPath parts, List.mem_append_left _ (by simp [sentPseudo]), target_sent laws hparts⟩
  case delivered =>
    rw [others_sent hfields]
    exact fun field hfield => by rw [(hfields field hfield).2.2]; rfl
  case exact => exact hexact
  case permitted =>
    rw [hexact]
    exact permitted_headers _

theorem requestHead_sent (laws : Lawful) {parts : RequestParts} (hparts : IsRequest parts) {fields : OwnedFields}
    (h : requestFields parts = .ok fields) : ∃ authority, sentAuthority parts = some authority ∧
      (Http.authority authority = true → 0x40 ∉ authority →
        (pathOf (sentPath parts) ≠ ascii "*" → requestHead fields = .ok (sent parts authority)) ∧
        (pathOf (sentPath parts) = ascii "*" → ∀ received, requestHead fields ≠ .ok received)) := by
  obtain ⟨hconnect, hscheme, authority, hauthority, rfl, hsent⟩ := requestFields_ok h
  refine ⟨authority, hauthority, fun hvalid huserinfo => ?_⟩
  have hfields (field : Field) (hfield : field ∈ (without (ascii "host") parts.headers).iter) :=
    deliver_sent laws hparts.headers hfield (hsent field hfield).1 (hsent field hfield).2
  have hguarded := guarded_sent laws hparts huserinfo hfields
  constructor
  · intro htarget
    have hcarried : Carried parts.method (sentScheme parts) authority (sentPath parts)
        (without (ascii "host") parts.headers) :=
      ⟨hscheme, hparts.token, hconnect, hvalid, huserinfo, htarget,
        laws.builds _ _ _ hscheme hvalid (target_sent laws hparts), (hparts.headers.without laws _).fits⟩
    refine requestHead_eq_ok_iff.mpr ⟨_, _, _, _, _, rfl, hguarded, hcarried, ?_⟩
    rw [hosts_sent hfields]
    exact nofun
  · intro htarget received hreceived
    obtain ⟨_, _, _, _, _, _, hother, hcarried, _⟩ := requestHead_eq_ok_iff.mp hreceived
    obtain ⟨path, hpath, hparsed⟩ := hother.pathField
    rw [path_of_mem hfields hpath, target_sent laws hparts] at hparsed
    exact hcarried.target (Option.some.inj hparsed ▸ htarget)

end Requests

/-! ## What comes back of a response and of trailers -/

theorem responseHeaderFields_ok {headers fields : List Field} (h : responseHeaderFields headers = .ok fields) :
    fields = headers ∧ ∀ field ∈ headers, field.1 ≠ ascii "te" ∧ field.1 ∉ forbidden := by
  induction headers generalizing fields with
  | nil =>
    cases h
    simp
  | cons field headers ih =>
    obtain ⟨name, value⟩ := field
    rw [responseHeaderFields] at h
    split at h
    · cases h
    rename_i hte
    split at h
    · cases h
    rename_i hforbidden
    cases hrest : responseHeaderFields headers with
    | error error => simp [hrest, Except.map] at h
    | ok rest =>
      obtain ⟨rfl, hall⟩ := ih hrest
      refine ⟨by simpa [hrest, Except.map] using h.symm, fun other hother => ?_⟩
      rcases List.mem_cons.mp hother with rfl | hother
      · exact ⟨hte, hforbidden⟩
      · exact hall other hother

section Received
variable [Http] {fields : List Field}

theorem gatherResponse_sent (hfields : ∀ field ∈ fields, isPseudo field.1 = false ∧
      Http.headerName field.1 = some field.1 ∧ Http.headerValue field.2 = true ∧ field.1 ≠ ascii "te" ∧ field.1 ∉ forbidden)
    (status : ℕ) (headers : HeaderMap) :
    gatherResponse fields (some status) headers =
      .ok (some status, fields.foldl (fun headers field => headers.append field.1 field.2) headers) := by
  induction fields generalizing headers with
  | nil => rfl
  | cons field fields ih =>
    obtain ⟨hregular, hname, hvalue, hte, hforbidden⟩ := hfields field (by simp)
    have hrest := ih (fun other hother => hfields other (by simp [hother])) (headers.append field.1 field.2)
    simp [gatherResponse, hregular, hname, hvalue, hte, hforbidden, hrest]

theorem gatherTrailers_sent (hfields : ∀ field ∈ fields, isPseudo field.1 = false ∧
      Http.headerName field.1 = some field.1 ∧ Http.headerValue field.2 = true ∧ field.1 ∉ forbidden) (map : HeaderMap) :
    gatherTrailers fields map = .ok (fields.foldl (fun map field => map.append field.1 field.2) map) := by
  induction fields generalizing map with
  | nil => rfl
  | cons field fields ih =>
    obtain ⟨hregular, hname, hvalue, hforbidden⟩ := hfields field (by simp)
    have hrest := ih (fun other hother => hfields other (by simp [hother])) (map.append field.1 field.2)
    simp [gatherTrailers, hregular, hname, hvalue, hforbidden, hrest]

/-- How many fields `HeaderMap::with_capacity` makes room for, which panics if asked for more. -/
def headerMapRoom : ℕ := 24576

/-- `trailers`, with the room that it asks for first: where there is not as much, it panics. -/
def trailersWithRoom (fields : List Field) : Option (Except Error HeaderMap) :=
  if headerMapRoom < fields.length then none else some (trailers fields)

theorem responseHead_sent (laws : Lawful) {parts : ResponseParts} (hparts : IsResponse parts) {fields : OwnedFields}
    (h : responseFields parts = .ok fields) : responseHead fields = .ok parts := by
  rw [responseFields] at h
  split at h
  · cases h
  rename_i headers hheaders
  obtain ⟨rfl, -⟩ := views_of_validated h
  obtain ⟨rfl, hall⟩ := responseHeaderFields_ok hheaders
  have hgather := @gatherResponse_sent _ parts.headers.iter (fun field hfield => ?_) parts.status []
  · have hmap : parts.headers.iter.foldl (fun headers field => HeaderMap.append headers field.1 field.2) [] =
        parts.headers := ofFields_iter hparts.headers.wellFormed
    have hpseudo : isPseudo (ascii ":status") = true := by decide
    simp [responseHead, gatherResponse, hpseudo, laws.status _ hparts.low hparts.high, hgather, hmap, hparts.headers.fits]
  · obtain ⟨hname, hvalue⟩ := hparts.headers.field hfield
    exact ⟨laws.unmarked _ _ hname, hname, hvalue, hall field hfield⟩

theorem trailers_sent (laws : Lawful) {map : HeaderMap} (hmap : IsHeaderMap map) {fields : OwnedFields}
    (h : trailerFields map = .ok fields) : trailers fields = .ok map := by
  rw [trailerFields] at h
  split at h
  · cases h
  rename_i hforbidden
  obtain ⟨rfl, -⟩ := views_of_validated h
  rw [trailers, gatherTrailers_sent fun field hfield => ?_]
  · exact congrArg Except.ok (ofFields_iter hmap.wellFormed)
  · obtain ⟨hname, hvalue⟩ := hmap.field hfield
    refine ⟨laws.unmarked _ _ hname, hname, hvalue, fun hmem => hforbidden ?_⟩
    exact List.any_eq_true.mpr ⟨field, hfield, decide_eq_true hmem⟩

/-- Every head that this crate agrees to send comes back as it was, where the authority of a request is valid and names
no user, and its target is not the asterisk, which is refused. -/
theorem heads_round_trip (laws : Lawful) :
    (∀ parts fields, IsRequest parts → requestFields parts = .ok fields → ∃ authority,
      sentAuthority parts = some authority ∧ (Http.authority authority = true → 0x40 ∉ authority →
        (pathOf (sentPath parts) ≠ ascii "*" → requestHead fields = .ok (sent parts authority)) ∧
        (pathOf (sentPath parts) = ascii "*" → ∀ received, requestHead fields ≠ .ok received))) ∧
    (∀ parts fields, IsResponse parts → responseFields parts = .ok fields → responseHead fields = .ok parts) ∧
    ∀ map fields, IsHeaderMap map → trailerFields map = .ok fields → fields.length ≤ headerMapRoom →
      trailersWithRoom fields = some (.ok map) := by
  refine ⟨fun parts fields hparts h => requestHead_sent laws hparts h,
    fun parts fields hparts h => responseHead_sent laws hparts h, fun map fields hmap h hroom => ?_⟩
  rw [trailersWithRoom, if_neg (Nat.not_lt.mpr hroom), trailers_sent laws hmap h]

end Received

/-! ## Heads on the line -/

section Plain
attribute [local instance] plain

theorem plain_lawful : Lawful := by
  constructor
  case unmarked =>
    intro name written h
    simp only [Http.headerName] at h
    split at h
    · rename_i hgood
      cases h
      cases name with
      | nil => rfl
      | cons byte rest =>
        have hbyte : isNameByte (toLower byte) = true := List.all_eq_true.mp hgood.2 _ (by simp)
        have hne : byte ≠ 0x3a := by
          rintro rfl
          cases hbyte
        simpa [isPseudo] using hne
    · cases h
  case status =>
    have hall : ∀ status < 1000, 100 ≤ status → Http.statusCode (statusText status) = some status := by decide +kernel
    exact fun status hlow hhigh => hall status hhigh hlow
  case root => decide
  case builds => exact fun _ _ _ _ _ _ => rfl
  case fewer => exact fun _ _ _ => rfl

def plainHeaders (headers : List (String × List String)) : HeaderMap :=
  headers.map fun entry => (ascii entry.1, entry.2.map ascii)

/-- A request of `OPTIONS *`, whose authority is its `host` field. -/
def optionsAsterisk : RequestParts :=
  { method := ascii "OPTIONS", uri := { pathAndQuery := some (ascii "*") }, headers := plainHeaders [("host", ["a"])] }

def someRequest : RequestParts :=
  { method := ascii "GET", uri := ⟨some (ascii "http"), some (ascii "a"), some (ascii "/x?y")⟩,
    headers := plainHeaders [("accept", ["b", "c"]), ("host", ["d"]), ("te", ["trailers"])] }

def someResponse : ResponseParts := { status := 204, headers := plainHeaders [("via", ["b", "c"])] }

theorem isHeaderMap_plain {headers : HeaderMap}
    (h : (headers.map (·.1)).Nodup ∧ (∀ entry ∈ headers, entry.2 ≠ []) ∧
      (∀ entry ∈ headers, Http.headerName entry.1 = some entry.1) ∧
      ∀ entry ∈ headers, ∀ value ∈ entry.2, Http.headerValue value = true) : IsHeaderMap headers :=
  ⟨⟨h.1, h.2.1⟩, h.2.2.1, h.2.2.2, rfl⟩

theorem isRequest_someRequest : IsRequest someRequest :=
  ⟨by decide, by decide, by decide, isHeaderMap_plain (by decide)⟩

theorem isRequest_optionsAsterisk : IsRequest optionsAsterisk :=
  ⟨by decide, by decide, by decide, isHeaderMap_plain (by decide)⟩

/-- A target that may be sent is refused. -/
theorem asterisk_refused : ¬ ∀ parts fields, IsRequest parts → requestFields parts = .ok fields →
    ∃ authority, sentAuthority parts = some authority ∧ requestHead fields = .ok (sent parts authority) := by
  intro h
  have hsent : (requestFields optionsAsterisk).toOption.isSome = true := by decide +kernel
  cases hfields : requestFields optionsAsterisk with
  | error error => simp [hfields, Except.toOption] at hsent
  | ok fields =>
    obtain ⟨authority, -, hreceived⟩ := h _ _ isRequest_optionsAsterisk hfields
    have hrefused : ((requestFields optionsAsterisk).toOption.bind fun fields => (requestHead fields).toOption) = none := by
      decide +kernel
    simp [hfields, hreceived, Except.toOption] at hrefused

/-- A request, a response and trailers that come back. -/
theorem heads_round_trip_some :
    (∃ fields, requestFields someRequest = .ok fields ∧ requestHead fields = .ok (sent someRequest (ascii "a"))) ∧
    (∃ fields, responseFields someResponse = .ok fields ∧ responseHead fields = .ok someResponse) ∧
    ∃ fields, trailerFields someResponse.headers = .ok fields ∧
      trailersWithRoom fields = some (.ok someResponse.headers) := by
  obtain ⟨hrequest, hresponse, htrailers⟩ := heads_round_trip plain_lawful
  have hvia : IsHeaderMap someResponse.headers := isHeaderMap_plain (by decide)
  have hfields : requestFields someRequest = .ok (sentPseudo someRequest (ascii "a") ++
      [(ascii "accept", ascii "b"), (ascii "accept", ascii "c"), (ascii "te", ascii "trailers")]) := by decide +kernel
  have hstatus : responseFields someResponse =
      .ok [(ascii ":status", ascii "204"), (ascii "via", ascii "b"), (ascii "via", ascii "c")] := by decide +kernel
  have htrailing : trailerFields someResponse.headers = .ok [(ascii "via", ascii "b"), (ascii "via", ascii "c")] := by
    decide +kernel
  refine ⟨⟨_, hfields, ?_⟩, ⟨_, hstatus, hresponse _ _ ⟨by decide, by decide, hvia⟩ hstatus⟩,
    ⟨_, htrailing, htrailers _ _ hvia htrailing (by decide)⟩⟩
  obtain ⟨authority, hauthority, hreceived⟩ := hrequest _ _ isRequest_someRequest hfields
  obtain rfl : authority = ascii "a" := by simpa [sentAuthority, someRequest] using hauthority.symm
  exact (hreceived (by decide) (by decide)).1 (by decide)

end Plain

end Ngnet.Http3HeadRoundTrips
