import Ngnet.Http3Heads

/-!
# Heads of HTTP/2 messages

The crate `ngnet-h2`: `header.rs` and `http/head.rs`, with the errors of `http/error.rs`. A head is sent as a list
of fields and received as one. What the crate `http` makes of a name, a value, a status, a method, an authority, a
path or a whole URI is a parameter, the class `Http`; so is whether it finds room for the header map of a head. The
cause that an error carries is left out.
-/

namespace Ngnet.Http2Heads
open QmuxVarints
open Http3Heads hiding Error protocol Header validateName validateValue views validated requestHeaderFields
  requestFields responseHeaderFields responseFields trailerFields requestHead gatherRequest agreedAuthority
  assembleRequest responseHead gatherResponse trailers gatherTrailers RequestHead fill

/-! ## Errors -/

/-- `Error`; the codes are those of frames. -/
structure Error where
  kind : ErrorKind
  detail : String
  reason : Option ℕ := none
  deriving DecidableEq, Repr

namespace Error

def because (error : Error) (reason : ℕ) : Error := { error with reason := some reason }

def closed : Error := ⟨.closed, "the connection was shut down before this exchange completed", none⟩

def refused : Error := ⟨.refused, "the peer went away before it began this exchange", none⟩

/-- A failure of a transport. -/
def ofIo : Error := ⟨.transport, "the transport failed", none⟩

/-- A failure of the session below. -/
def ofSession : Error := ⟨.connection, "the HTTP/2 session failed", none⟩

end Error

/-- How the driver can stop other than by returning. -/
inductive Fault
  | returned (error : Error)
  | panicked
  deriving DecidableEq, Repr

def protocol (detail : String) : Error := ⟨.protocol, detail, none⟩

/-! ## Fields -/

/-- `OwnedHeaders`. -/
abbrev OwnedHeaders := List Field

def isTokenByte (byte : UInt8) : Bool := isNameByte byte

/-- What `validate` asks of one field. -/
def validateField (name value : Bytes) (seenRegular : Bool) : Except String Unit :=
  if name = [] then .error "a header name must not be empty"
  else if name = [0x3a] then .error "a pseudo-header name must not be just a colon"
  else match (nameBody name).find? (fun byte => !isTokenByte byte) with
    | some byte =>
      if isUppercase byte then .error "header names must be lowercase in HTTP/2"
      else .error "a header name contains a character that is not permitted"
    | none =>
      if isPseudo name ∧ seenRegular then .error "pseudo-headers must precede regular header fields"
      else if value.any (fun byte => !isValueByte byte) then
        .error "a header value may only contain visible characters, spaces and tabs"
      else if value.head?.any isBlank || value.getLast?.any isBlank then
        .error "a header value must not begin or end with whitespace"
      else .ok ()

/-- The loop of `validate`. -/
def validateFields : OwnedHeaders → Bool → Except String Unit
  | [], _ => .ok ()
  | (name, value) :: rest, seenRegular => do
    validateField name value seenRegular
    validateFields rest (seenRegular || !isPseudo name)

def validate (headers : OwnedHeaders) : Except String Unit :=
  if headers = [] then .error "a header set must contain at least one field" else validateFields headers false

def toTrailerNvVec (headers : OwnedHeaders) : Except String OwnedHeaders := do
  validate headers
  if headers.any (isPseudo ·.1) then .error "trailers must not contain pseudo-header fields" else .ok headers

/-- The headers, if `validate` accepts them, under an error that names the caller's mistake. -/
def validated (detail : String) (headers : OwnedHeaders) : Except Error OwnedHeaders :=
  match validate headers with
  | .error _ => .error (protocol detail)
  | .ok () => .ok headers

/-! ## Sending a head -/

/-- The loop of `request_headers` over the headers. -/
def requestFields : List Field → Except Error OwnedHeaders
  | [] => .ok []
  | (name, value) :: rest =>
    if name = ascii "host" then requestFields rest
    else if name ∈ forbidden then .error (protocol "this field is connection-specific and HTTP/2 forbids it")
    else (requestFields rest).map ((name, value) :: ·)

def requestHeaders (parts : RequestParts) : Except Error OwnedHeaders :=
  if parts.method = connect then
    .error (protocol "CONNECT is not supported: this crate speaks h2c request/response only")
  else match parts.uri.authority <|> parts.headers.get (ascii "host") with
    | none => .error (protocol "a request needs an authority: set one on the URI, or send a host field")
    | some authority =>
      match requestFields parts.headers.iter with
      | .error error => .error error
      | .ok fields => validated "the request head is not a valid HTTP/2 header set"
          ([(ascii ":method", parts.method), (ascii ":scheme", parts.uri.scheme.getD (ascii "http")),
            (ascii ":authority", authority), (ascii ":path", parts.uri.pathAndQuery.getD (ascii "/"))] ++ fields)

attribute [local instance] lawfulBEq_bytes in
/-- The loop of `response_headers`, and of `trailer_fields`, over the headers. -/
def regularFields (detail : String) (headers : List Field) : Except Error OwnedHeaders :=
  if headers.any (·.1 ∈ forbidden) then .error (protocol detail) else .ok headers

def responseHeaders (parts : ResponseParts) : Except Error OwnedHeaders := do
  let fields ← regularFields "this field is connection-specific and HTTP/2 forbids it" parts.headers.iter
  validated "the response head is not a valid HTTP/2 header set" ((ascii ":status", statusText parts.status) :: fields)

def trailerFields (trailers : HeaderMap) : Except Error OwnedHeaders :=
  regularFields "this field is connection-specific and HTTP/2 forbids it in trailers" trailers.iter

/-! ## Receiving a head -/

/-- What `request_head` has gathered from the fields so far. -/
structure RequestHead where
  method : Option Bytes := none
  scheme : Option Bytes := none
  authority : Option Bytes := none
  path : Option Bytes := none
  host : Option Bytes := none
  seenField : Bool := false
  headers : HeaderMap := []
  deriving DecidableEq, Repr

/-- Fills a slot for a pseudo-header, once. -/
def fill (slot : Option Bytes) (value : Bytes) : Except Error (Option Bytes) :=
  if slot.isSome then .error (protocol "a request carries each pseudo-header at most once") else .ok (some value)

def RequestHead.pseudo (head : RequestHead) (name value : Bytes) : Except Error RequestHead :=
  if head.seenField then .error (protocol "a request must send its pseudo-headers before any other field")
  else if name = ascii ":method" then (fill head.method value).map fun method => { head with method }
  else if name = ascii ":scheme" then (fill head.scheme value).map fun scheme => { head with scheme }
  else if name = ascii ":authority" then (fill head.authority value).map fun authority => { head with authority }
  else if name = ascii ":path" then (fill head.path value).map fun path => { head with path }
  else if name = ascii ":protocol" then
    .error (protocol "extended CONNECT is not supported: this crate speaks h2c request/response only")
  else .error (protocol "the peer sent a pseudo-header HTTP/2 does not define")

section Receive
variable [Http]

def RequestHead.regular (head : RequestHead) (name value : Bytes) : Except Error RequestHead :=
  let head := { head with seenField := true }
  if eqIgnoreCase name (ascii "host") then .ok { head with host := some value }
  else match Http.headerName name with
    | none => .error (protocol "the peer sent a malformed field name")
    | some name =>
      if ¬ Http.headerValue value then .error (protocol "the peer sent a malformed field value")
      else .ok { head with headers := head.headers.append name value }

/-- The loop of `request_head` over the fields. -/
def gatherRequest : List Field → RequestHead → Except Error RequestHead
  | [], head => .ok head
  | (name, value) :: rest, head =>
    match if isPseudo name then head.pseudo name value else head.regular name value with
    | .error error => .error error
    | .ok head => gatherRequest rest head

/-- `request_head`, behind its loop. -/
def assembleRequest (head : RequestHead) : Except Error RequestParts := do
  let method ← head.method.elim (.error (protocol "a request must carry :method")) .ok
  let path ← head.path.elim (.error (protocol "a request must carry :path")) .ok
  let authority ← head.authority.elim (.error (protocol "a request must carry :authority")) .ok
  let scheme := head.scheme.getD (ascii "http")
  if head.host.any (· ≠ authority) then
    .error (protocol "the peer sent a host field that disagrees with :authority")
  else if scheme ≠ ascii "http" then .error (protocol "this crate speaks cleartext HTTP/2 only")
  else if ¬ Http.method method then .error (protocol "the peer sent a method that is not a token")
  else if method = connect then
    .error (protocol "CONNECT is not supported: this crate speaks h2c request/response only")
  else if ¬ Http.authority authority then
    .error (protocol "the peer sent an :authority that is not a valid authority")
  else if 0x40 ∈ authority then .error (protocol "RFC 9113 §8.3.1 forbids userinfo in :authority")
  else match Http.pathAndQuery path with
    | none => .error (protocol "the peer sent a :path that is not a valid request target")
    | some pathAndQuery =>
      if pathOf pathAndQuery = ascii "*" then
        .error (protocol
          "the asterisk request target is not supported: this crate speaks h2c request/response only")
      else if ¬ Http.uri scheme authority pathAndQuery then
        .error (protocol "the peer sent a request target that is not a URI")
      else if ¬ Http.fits head.headers then
        .error (protocol "the peer sent a request head that could not be assembled")
      else .ok ⟨method, ⟨some scheme, some authority, some pathAndQuery⟩, head.headers⟩

def requestHead (fields : List Field) : Except Error RequestParts :=
  match gatherRequest fields {} with
  | .error error => .error error
  | .ok head => assembleRequest head

/-- The loop of `response_head` over the fields. -/
def gatherResponse : List Field → Option ℕ → HeaderMap → Except Error (Option ℕ × HeaderMap)
  | [], status, headers => .ok (status, headers)
  | (name, value) :: rest, status, headers =>
    if isPseudo name then
      if name ≠ ascii ":status" then .error (protocol "a response carries no pseudo-header but :status")
      else if status.isSome then .error (protocol "a response carries exactly one :status")
      else match Http.statusCode value with
        | none => .error (protocol "the peer sent a malformed :status")
        | some status => gatherResponse rest (some status) headers
    else if status.isNone then .error (protocol "a response must send :status before any other field")
    else match Http.headerName name with
      | none => .error (protocol "the peer sent a malformed field name")
      | some name =>
        if ¬ Http.headerValue value then .error (protocol "the peer sent a malformed field value")
        else gatherResponse rest status (headers.append name value)

def responseHead (fields : List Field) : Except Error ResponseParts :=
  match gatherResponse fields none [] with
  | .error error => .error error
  | .ok (none, _) => .error (protocol "a response must carry :status")
  | .ok (some status, headers) =>
    if ¬ Http.fits headers then
      .error (protocol "the peer sent a response head that could not be assembled")
    else .ok ⟨status, headers⟩

/-- The loop of `trailers` over the fields. -/
def gatherTrailers : List Field → HeaderMap → Except Error HeaderMap
  | [], map => .ok map
  | (name, value) :: rest, map =>
    if isPseudo name then .error (protocol "a trailing header block carries no pseudo-headers")
    else match Http.headerName name with
      | none => .error (protocol "the peer sent a malformed trailer name")
      | some name =>
        if ¬ Http.headerValue value then .error (protocol "the peer sent a malformed trailer value")
        else gatherTrailers rest (map.append name value)

/-- How many fields `HeaderMap::with_capacity` makes room for, which panics if asked for more. -/
def headerMapRoom : ℕ := 24576

def trailers (fields : List Field) : Except Fault (Except Error HeaderMap) :=
  if headerMapRoom < fields.length then .error .panicked else .ok (gatherTrailers fields [])

end Receive

/-! ## Headers that are submitted -/

theorem validate_of_validated {detail : String} {headers checked : OwnedHeaders}
    (h : validated detail headers = .ok checked) : checked = headers ∧ validate headers = .ok () := by
  rw [validated] at h
  split at h
  · cases h
  · next hvalid =>
    cases h
    exact ⟨rfl, hvalid⟩

theorem validate_responseHeaders {parts : ResponseParts} {headers : OwnedHeaders}
    (h : responseHeaders parts = .ok headers) : validate headers = .ok () := by
  rw [responseHeaders, regularFields] at h
  split at h
  · cases h
  obtain ⟨rfl, hvalid⟩ := validate_of_validated h
  exact hvalid

end Ngnet.Http2Heads
