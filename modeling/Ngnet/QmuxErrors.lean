import Ngnet.QmuxCloseCodec

/-!
# How the QMux layers fail

`error.rs` classifies what the native library refused; `io/error.rs` adds the endings a byte
stream can have. Only what a caller can observe is kept: the boxed cause of an error has no
equality and is never consulted.
-/

namespace Ngnet.QmuxErrors
open QmuxCloseCodec

/-- `ErrorKind` of the state machine. -/
inductive CoreErrorKind
  | invalidArgument | protocol | invalidState | limitExceeded | stream | transportParameter
  | closed | handler | memory | internal
  deriving DecidableEq, Repr

/-- `io::ErrorKind`. -/
inductive ErrorKind
  | byteStream | endOfStream | truncatedRecord | protocol | peerClosed | locallyClosed | internal
  deriving DecidableEq, Repr

def ErrorKind.isOrderly : ErrorKind → Bool
  | .endOfStream | .peerClosed | .locallyClosed => true
  | _ => false

/-- `io::Error`, its boxed source aside. -/
structure Error where
  kind : ErrorKind
  context : String
  close : Option CloseReason := none
  deriving DecidableEq, Repr

def Error.withClose (error : Error) (close : CloseReason) : Error :=
  { error with close := some close }

def Error.withContext (error : Error) (context : String) : Error := { error with context }

/-- `impl From<crate::error::Error> for Error`. -/
def Error.ofCore (kind : CoreErrorKind) : Error where
  kind := match kind with
    | .closed => .locallyClosed
    | .protocol | .limitExceeded | .transportParameter | .stream => .protocol
    | _ => .internal
  context := "the connection failed"

end Ngnet.QmuxErrors
