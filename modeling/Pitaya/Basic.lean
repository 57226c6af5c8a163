import Pitaya.Lib.Bytes

/-!
# Builds, faults and error codes

The library is compiled with assertions (a debug build) or without them (`build-mac`
compiles a release build). `Fault` lists the ways in which a handler running on the
worker thread fails to come back: once one of them happens no later handler runs.
Error codes follow `boost::system::error_code`; success is `none` in `Option ErrorCode`.
-/

namespace Pitaya

inductive Build where
  | debug
  | release
  deriving DecidableEq, Repr

inductive Fault where
  | assertion
  /-- `std::out_of_range` left `io_context::run` and with it the worker thread. -/
  | outOfRange
  | outOfBounds
  | wideShift
  | badAccess
  | endlessLoop
  deriving DecidableEq, Repr

/-- `assert(cond)`: a fault in a debug build, nothing in a release build. -/
def Build.assert (build : Build) (cond : Bool) : Except Fault Unit :=
  match build, cond with
  | .debug, false => .error .assertion
  | _, _ => .ok ()

@[simp] theorem Build.assert_true (build : Build) : build.assert true = .ok () := by
  cases build <;> rfl

theorem ok_bind {α β : Type} (a : α) (f : α → Except Fault β) :
    (Except.ok a : Except Fault α) >>= f = f a := rfl

theorem error_bind {α β : Type} (e : Fault) (f : α → Except Fault β) :
    (Except.error e : Except Fault α) >>= f = .error e := rfl

theorem bind_eq_ok_iff {α β : Type} {x : Except Fault α} {f : α → Except Fault β} {b : β} :
    x >>= f = .ok b ↔ ∃ a, x = .ok a ∧ f a = .ok b := by
  cases x with
  | error e => simp [bind, Except.bind]
  | ok a => simp [bind, Except.bind]

theorem bind_ne_error {α β : Type} {x : Except Fault α} {f : α → Except Fault β} {e : Fault}
    (hx : x ≠ .error e) (hf : ∀ a, f a ≠ .error e) : x >>= f ≠ .error e := by
  cases x with
  | error e' => simpa [bind, Except.bind] using hx
  | ok a => exact hf a

theorem Build.assert_ne_outOfRange (build : Build) (cond : Bool) :
    build.assert cond ≠ .error .outOfRange := by
  cases build <;> cases cond <;> simp [Build.assert]

inductive ConnectionErrc where
  | invalidPacketType
  | tooManyPackets
  | wrongPacket
  | heartbeatTimeout
  | invalidHeartbeatJson
  | invalidHandshakeCompression
  | invalidMessage
  deriving DecidableEq, Repr

def ConnectionErrc.message : ConnectionErrc → String
  | .invalidPacketType => "Received invalid packet type from server"
  | .tooManyPackets => "Received too many packets from the server"
  | .wrongPacket => "Received wrong packet from the server"
  | .heartbeatTimeout => "Did not receive heartbeat from server"
  | .invalidHandshakeCompression => "Invalid handshake response compression from server"
  | .invalidHeartbeatJson => "Invalid heartbeat json value from server"
  | .invalidMessage => "Unknown error"

inductive ErrorCode where
  | connection (e : ConnectionErrc)
  | system (message : String)
  deriving DecidableEq, Repr

def ErrorCode.message : ErrorCode → String
  | .connection e => e.message
  | .system m => m

end Pitaya
