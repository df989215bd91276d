import Ngnet.QmuxVarints

/-!
# Heads of HTTP/3 messages

The crate `ngnet-h3`: `header.rs` and `http/head.rs`, with the errors of `http/error.rs`. A head is
sent as a list of fields and received as one. What the crate `http` makes of a name, a value, a
status, a method, an authority, a path or a whole URI is a parameter, the class `Http`; so is
whether it finds room for a header map. The cause that an error carries is left out.
-/

namespace Ngnet.Http3Heads
open QmuxVarints

/-! ## Errors -/

inductive ErrorKind | transport | connection | stream | protocol | closed | body | refused
  deriving DecidableEq, Repr

structure Error where
  kind : ErrorKind
  detail : String
  code : Option ℕ := none
  deriving DecidableEq, Repr

def protocol (detail : String) : Error := ⟨.protocol, detail, none⟩

theorem lawfulBEq_bytes : LawfulBEq Bytes := inferInstance

/-! ## The types of the crate `http` -/

def ascii (text : String) : Bytes := text.toList.map fun c => c.toNat.toUInt8

abbrev Field := Bytes × Bytes

/-- The names in the order they were first added, each with its values. -/
abbrev HeaderMap := List (Bytes × List Bytes)

namespace HeaderMap

def append : HeaderMap → Bytes → Bytes → HeaderMap
  | [], name, value => [(name, [value])]
  | entry :: rest, name, value =>
    if entry.1 = name then (name, entry.2 ++ [value]) :: rest else entry :: append rest name value

def iter (headers : HeaderMap) : List Field := headers.flatMap fun entry => entry.2.map (entry.1, ·)

def get (headers : HeaderMap) (name : Bytes) : Option Bytes :=
  (headers.find? (·.1 = name)).bind (·.2.head?)

end HeaderMap

structure Uri where
  scheme : Option Bytes := none
  authority : Option Bytes := none
  pathAndQuery : Option Bytes := none
  deriving DecidableEq, Repr

/-- `http::request::Parts`; of its extensions nothing here reads any. -/
structure RequestParts where
  method : Bytes
  uri : Uri
  headers : HeaderMap := []
  deriving DecidableEq, Repr

structure ResponseParts where
  status : ℕ
  headers : HeaderMap := []
  deriving DecidableEq, Repr

/-- What the crate `http` accepts. A name and a path are given back as the crate writes them, a
status as its number; the rest is kept as it is. -/
class Http where
  headerName : Bytes → Option Bytes
  headerValue : Bytes → Bool
  statusCode : Bytes → Option ℕ
  method : Bytes → Bool
  authority : Bytes → Bool
  pathAndQuery : Bytes → Option Bytes
  uri : Bytes → Bytes → Bytes → Bool
  fits : HeaderMap → Bool

/-- `PathAndQuery::path`. -/
def pathOf (pathAndQuery : Bytes) : Bytes :=
  let path := pathAndQuery.takeWhile (· ≠ 0x3f)
  if path = [] then ascii "/" else path

def statusText (status : ℕ) : Bytes := ascii (toString status)

/-! ## Fields -/

def isLowercase (byte : UInt8) : Bool := 0x61 ≤ byte && byte ≤ 0x7a

def isUppercase (byte : UInt8) : Bool := 0x41 ≤ byte && byte ≤ 0x5a

def isDigit (byte : UInt8) : Bool := 0x30 ≤ byte && byte ≤ 0x39

def isNamePunctuation (byte : UInt8) : Bool := byte ∈ ascii "!#$%&'*+-.^_`|~"

def isNameByte (byte : UInt8) : Bool := isLowercase byte || isDigit byte || isNamePunctuation byte

def isValueByte (byte : UInt8) : Bool :=
  byte == 0x09 || byte == 0x20 || (0x21 ≤ byte && byte ≤ 0x7e) || 0x80 ≤ byte

def isBlank (byte : UInt8) : Bool := byte == 0x20 || byte == 0x09

/-- The bytes of a name behind the colon of a pseudo-header. -/
def nameBody : Bytes → Bytes
  | 0x3a :: rest => rest
  | name => name

def validateName (name : Bytes) : Except String Unit :=
  if name = [] then .error "a field name cannot be empty"
  else if nameBody name = [] then .error "a pseudo-header name needs more than its colon"
  else match (nameBody name).find? (fun byte => !isNameByte byte) with
    | none => .ok ()
    | some byte =>
      if isUppercase byte then .error "HTTP/3 field names must be lowercase"
      else .error "that byte is not allowed in an HTTP/3 field name"

def validateValue (value : Bytes) : Except String Unit :=
  match value.find? (fun byte => !isValueByte byte) with
  | some 0x00 => .error "a field value cannot contain NUL"
  | some 0x0d | some 0x0a =>
    .error "a field value cannot contain CR or LF, which would let it inject a second field"
  | some _ => .error "that control byte is not allowed in a field value"
  | none =>
    if value.head?.any isBlank || value.getLast?.any isBlank then
      .error "a field value cannot begin or end with a space or tab"
    else .ok ()

/-- A field that `Header::new` has accepted. -/
structure Header where
  name : Bytes
  value : Bytes
  name_valid : validateName name = .ok ()
  value_valid : validateValue value = .ok ()
  deriving DecidableEq

def Header.new (name value : Bytes) : Except String Header :=
  match hname : validateName name, hvalue : validateValue value with
  | .ok (), .ok () => .ok ⟨name, value, hname, hvalue⟩
  | .error context, _ => .error context
  | .ok (), .error context => .error context

/-- `OwnedFields`. -/
abbrev OwnedFields := List Field

/-- `OwnedFields::views`. -/
def views : OwnedFields → Except Error (List Header)
  | [] => .ok []
  | (name, value) :: rest =>
    match Header.new name value with
    | .error _ => .error (protocol "this head is not a valid HTTP/3 field section")
    | .ok header => (views rest).map (header :: ·)

/-- The fields, once each of them is known to be valid. -/
def validated (fields : OwnedFields) : Except Error OwnedFields := (views fields).map fun _ => fields

/-! ## Sending a head -/

def forbidden : List Bytes :=
  [ascii "connection", ascii "keep-alive", ascii "proxy-connection", ascii "transfer-encoding", ascii "upgrade"]

def toLower (byte : UInt8) : UInt8 := if isUppercase byte then byte + 0x20 else byte

def eqIgnoreCase (bytes other : Bytes) : Bool := bytes.map toLower == other.map toLower

def teIsPermitted (value : Bytes) : Bool := eqIgnoreCase value (ascii "trailers")

def schemeIsSupported (scheme : Bytes) : Bool := scheme == ascii "http" || scheme == ascii "https"

def connect : Bytes := ascii "CONNECT"

/-- The loop of `request_fields` over the headers. -/
def requestHeaderFields : List Field → Except Error OwnedFields
  | [] => .ok []
  | (name, value) :: rest =>
    if name = ascii "host" then requestHeaderFields rest
    else if name = ascii "te" ∧ ¬ teIsPermitted value then
      .error (protocol "HTTP/3 permits `te` only with the value `trailers`")
    else if name ≠ ascii "te" ∧ name ∈ forbidden then
      .error (protocol "this field is connection-specific and HTTP/3 forbids it")
    else (requestHeaderFields rest).map ((name, value) :: ·)

/-- `request_fields`. -/
def requestFields (parts : RequestParts) : Except Error OwnedFields :=
  if parts.method = connect then
    .error (protocol "CONNECT is not supported: this crate speaks HTTP/3 request/response only")
  else
    let scheme := parts.uri.scheme.getD (ascii "https")
    if ¬ schemeIsSupported scheme then
      .error (protocol "a request scheme must be http or https: this crate carries no others")
    else match parts.uri.authority <|> parts.headers.get (ascii "host") with
      | none => .error (protocol "a request needs an authority: set one on the URI, or send a host field")
      | some authority =>
        match requestHeaderFields parts.headers.iter with
        | .error error => .error error
        | .ok fields => validated ([(ascii ":method", parts.method), (ascii ":scheme", scheme),
            (ascii ":authority", authority), (ascii ":path", parts.uri.pathAndQuery.getD (ascii "/"))] ++ fields)

/-- The loop of `response_fields` over the headers. -/
def responseHeaderFields : List Field → Except Error OwnedFields
  | [] => .ok []
  | (name, value) :: rest =>
    if name = ascii "te" then .error (protocol "HTTP/3 forbids `te` in a response")
    else if name ∈ forbidden then
      .error (protocol "this field is connection-specific and HTTP/3 forbids it")
    else (responseHeaderFields rest).map ((name, value) :: ·)

/-- `response_fields`. -/
def responseFields (parts : ResponseParts) : Except Error OwnedFields :=
  match responseHeaderFields parts.headers.iter with
  | .error error => .error error
  | .ok fields => validated ((ascii ":status", statusText parts.status) :: fields)

/-- `trailer_fields`. -/
def trailerFields (trailers : HeaderMap) : Except Error OwnedFields :=
  if trailers.iter.any (·.1 ∈ forbidden) then
    .error (protocol "this field is connection-specific and HTTP/3 forbids it in trailers")
  else validated trailers.iter

/-! ## Receiving a head -/

/-- What `request_head` has gathered from the fields so far. -/
structure RequestHead where
  method : Option Bytes := none
  scheme : Option Bytes := none
  authority : Option Bytes := none
  path : Option Bytes := none
  host : Option Bytes := none
  seenField : Bool := false
  headers : HeaderMap := []
  deriving DecidableEq, Repr

def isPseudo (name : Bytes) : Bool := name.head? == some 0x3a

/-- Fills a slot for a pseudo-header, once. -/
def fill (slot : Option Bytes) (value : Bytes) : Except Error (Option Bytes) :=
  if slot.isSome then .error (protocol "a request carries each pseudo-header at most once")
  else .ok (some value)

def RequestHead.pseudo (head : RequestHead) (name value : Bytes) : Except Error RequestHead :=
  if head.seenField then
    .error (protocol "a request must send its pseudo-headers before any other field")
  else if name = ascii ":method" then (fill head.method value).map fun method => { head with method }
  else if name = ascii ":scheme" then (fill head.scheme value).map fun scheme => { head with scheme }
  else if name = ascii ":authority" then
    (fill head.authority value).map fun authority => { head with authority }
  else if name = ascii ":path" then (fill head.path value).map fun path => { head with path }
  else if name = ascii ":protocol" then
    .error (protocol "extended CONNECT is not supported: this crate speaks HTTP/3 request/response only")
  else .error (protocol "the peer sent a pseudo-header HTTP/3 does not define")

section Receive
variable [Http]

def RequestHead.regular (head : RequestHead) (name value : Bytes) : Except Error RequestHead :=
  let head := { head with seenField := true }
  if eqIgnoreCase name (ascii "host") then .ok { head with host := some value }
  else match Http.headerName name with
    | none => .error (protocol "the peer sent a malformed field name")
    | some name =>
      if name = ascii "te" ∧ ¬ teIsPermitted value then
        .error (protocol "the peer sent a `te` field with a value HTTP/3 does not permit")
      else if name ≠ ascii "te" ∧ name ∈ forbidden then
        .error (protocol "the peer sent a connection-specific field HTTP/3 forbids")
      else if ¬ Http.headerValue value then .error (protocol "the peer sent a malformed field value")
      else .ok { head with headers := head.headers.append name value }

/-- The loop of `request_head` over the fields. -/
def gatherRequest : List Field → RequestHead → Except Error RequestHead
  | [], head => .ok head
  | (name, value) :: rest, head =>
    match if isPseudo name then head.pseudo name value else head.regular name value with
    | .error error => .error error
    | .ok head => gatherRequest rest head

/-- The authority that `:authority` and `host` agree on. -/
def agreedAuthority : Option Bytes → Option Bytes → Except Error Bytes
  | some authority, some host =>
    if authority ≠ host then .error (protocol "the peer sent a host field that disagrees with :authority")
    else .ok authority
  | some authority, none => .ok authority
  | none, some host =>
    if host ≠ [] then .ok host
    else .error (protocol "a request must name its authority, as :authority or as a host field")
  | none, none => .error (protocol "a request must name its authority, as :authority or as a host field")

/-- `request_head`, behind its loop. -/
def assembleRequest (head : RequestHead) : Except Error RequestParts := do
  let method ← head.method.elim (.error (protocol "a request must carry :method")) .ok
  let path ← head.path.elim (.error (protocol "a request must carry :path")) .ok
  let authority ← agreedAuthority head.authority head.host
  let scheme := head.scheme.getD (ascii "https")
  if ¬ schemeIsSupported scheme then
    .error (protocol "the peer sent a :scheme this crate does not carry")
  else if ¬ Http.method method then .error (protocol "the peer sent a method that is not a token")
  else if method = connect then
    .error (protocol "CONNECT is not supported: this crate speaks HTTP/3 request/response only")
  else if ¬ Http.authority authority then
    .error (protocol "the peer sent an :authority that is not a valid authority")
  else if 0x40 ∈ authority then .error (protocol "userinfo is forbidden in :authority")
  else match Http.pathAndQuery path with
    | none => .error (protocol "the peer sent a :path that is not a valid request target")
    | some pathAndQuery =>
      if pathOf pathAndQuery = ascii "*" then
        .error (protocol
          "the asterisk request target is not supported: this crate speaks HTTP/3 request/response only")
      else if ¬ Http.uri scheme authority pathAndQuery then
        .error (protocol "the peer sent a request target that is not a URI")
      else if ¬ Http.fits head.headers then
        .error (protocol "the peer sent a request head that could not be assembled")
      else .ok ⟨method, ⟨some scheme, some authority, some pathAndQuery⟩, head.headers⟩

/-- `request_head`. -/
def requestHead (fields : List Field) : Except Error RequestParts :=
  match gatherRequest fields {} with
  | .error error => .error error
  | .ok head => assembleRequest head

/-- The loop of `response_head` over the fields. -/
def gatherResponse : List Field → Option ℕ → HeaderMap → Except Error (Option ℕ × HeaderMap)
  | [], status, headers => .ok (status, headers)
  | (name, value) :: rest, status, headers =>
    if isPseudo name then
      if name ≠ ascii ":status" then .error (protocol "a response carries no pseudo-header but :status")
      else if status.isSome then .error (protocol "a response carries exactly one :status")
      else match Http.statusCode value with
        | none => .error (protocol "the peer sent a malformed :status")
        | some status => gatherResponse rest (some status) headers
    else if status.isNone then .error (protocol "a response must send :status before any other field")
    else match Http.headerName name with
      | none => .error (protocol "the peer sent a malformed field name")
      | some name =>
        if name = ascii "te" then .error (protocol "the peer sent `te` in a response, which HTTP/3 forbids")
        else if name ∈ forbidden then
          .error (protocol "the peer sent a connection-specific field HTTP/3 forbids")
        else if ¬ Http.headerValue value then .error (protocol "the peer sent a malformed field value")
        else gatherResponse rest status (headers.append name value)

/-- `response_head`. -/
def responseHead (fields : List Field) : Except Error ResponseParts :=
  match gatherResponse fields none [] with
  | .error error => .error error
  | .ok (none, _) => .error (protocol "a response must carry :status")
  | .ok (some status, headers) =>
    if ¬ Http.fits headers then
      .error (protocol "the peer sent a response head that could not be assembled")
    else .ok ⟨status, headers⟩

def isInformational (status : ℕ) : Bool := 100 ≤ status && status < 200

/-- The loop of `trailers` over the fields. -/
def gatherTrailers : List Field → HeaderMap → Except Error HeaderMap
  | [], map => .ok map
  | (name, value) :: rest, map =>
    if isPseudo name then .error (protocol "a trailing field section carries no pseudo-headers")
    else match Http.headerName name with
      | none => .error (protocol "the peer sent a malformed trailer name")
      | some name =>
        if name ∈ forbidden then
          .error (protocol "the peer sent a connection-specific field HTTP/3 forbids in trailers")
        else if ¬ Http.headerValue value then .error (protocol "the peer sent a malformed trailer value")
        else gatherTrailers rest (map.append name value)

/-- `trailers`. -/
def trailers (fields : List Field) : Except Error HeaderMap := gatherTrailers fields []

end Receive

/-! ## Valid fields -/

theorem views_of_validated {fields checked : OwnedFields} (h : validated fields = .ok checked) :
    checked = fields ∧ ∃ headers, views fields = .ok headers := by
  rw [validated] at h
  cases hviews : views fields with
  | error error => simp [hviews, Except.map] at h
  | ok headers =>
    simp only [hviews, Except.map, Except.ok.injEq] at h
    exact ⟨h.symm, headers, rfl⟩

theorem views_requestFields {parts : RequestParts} {fields : OwnedFields} (h : requestFields parts = .ok fields) :
    ∃ headers, views fields = .ok headers := by
  rw [requestFields] at h
  split at h
  · cases h
  dsimp only at h
  split at h
  · cases h
  split at h
  · cases h
  split at h
  · cases h
  obtain ⟨rfl, hviews⟩ := views_of_validated h
  exact hviews

theorem views_responseFields {parts : ResponseParts} {fields : OwnedFields} (h : responseFields parts = .ok fields) :
    ∃ headers, views fields = .ok headers := by
  rw [responseFields] at h
  split at h
  · cases h
  obtain ⟨rfl, hviews⟩ := views_of_validated h
  exact hviews

theorem views_trailerFields {trailers : HeaderMap} {fields : OwnedFields} (h : trailerFields trailers = .ok fields) :
    ∃ headers, views fields = .ok headers := by
  rw [trailerFields] at h
  split at h
  · cases h
  obtain ⟨rfl, hviews⟩ := views_of_validated h
  exact hviews

end Ngnet.Http3Heads
