import RsmpGateway.Cyber.Connection
import RsmpGateway.Lib.System
import RsmpGateway.Lib.Rotation

/-!
# Two peers

Two peers, the frames on their way in each direction, and the steps of both: each task of each
connection takes its turns, a connection stops on one side (a time-out, a loss) before the other,
a process starts again from its file, and a new connection is made when both sides have left the
previous one.

* A step names a side and what its turn reads from outside (`Input`): the date, the draws, and
  where the turn fails, if it does. The allocations of a challenge and of its entry in the send
  queue are granted (`Failure.ofMemory`).
* Frames come in order or not at all: a side that leaves the connection loses what it has not
  read.
* A turn in which the process dies leaves the file, from which the peer starts again.
-/

namespace RsmpGateway.Cyber

open RsmpGateway.Lib RsmpGateway.Auth RsmpGateway.Coder

inductive Side
  | a
  | b
  deriving Repr, DecidableEq

/-- The remote of a side. -/
def Side.remote : Side → Side
  | a => b
  | b => a

@[simp] theorem Side.remote_remote (s : Side) : s.remote.remote = s := by cases s <;> rfl

@[simp] theorem Side.remote_ne (s : Side) : s.remote ≠ s := by cases s <;> decide

@[simp] theorem Side.ne_remote (s : Side) : s ≠ s.remote := by cases s <;> decide

theorem Side.eq_or_eq_remote (s t : Side) : t = s ∨ t = s.remote := by
  cases s <;> cases t <;> decide

/-- What does not change: the id of each peer, and the difference of two dates. -/
structure Site where
  sId : Side → Bytes
  diffHorodateSec : HoroDate → HoroDate → Int

/-- What a task reads from outside. -/
structure Input where
  now : HoroDate
  rand : Nat → Nat
  pad : Bytes
  encodes : Bool
  failure : Option Failure

/-- The peers, the frames that each side wrote and the other did not read, and the next
identifier. -/
structure Net where
  peer : Side → Peer
  chan : Side → List Frame
  uuid : Nat

inductive NetOp
  | /-- `cyber_receive_internal`, on a message -/
    process (s : Side) (i : Input)
  | /-- `cyber_receive_internal`, between messages -/
    initiate (s : Side) (i : Input)
  | /-- `cyber_send` -/
    send (s : Side) (i : Input)
  | /-- `cyber_receive` -/
    receive (s : Side) (valid : Message → Bool)
  | stop (s : Side)
  | restart (s : Side)
  | connect

/-- The failures of the two allocations. -/
def Failure.ofMemory : Failure → Bool
  | .memory => true
  | .queue => true
  | _ => false

variable (C : Site)

/-- `coder_secret_get` where nothing is cached: of the current password. -/
def Site.derived (C : Site) (s : Side) : SecretGet := getPassphraseForPwd (C.sId s)

/-- What a turn of a side reads, with the secrets of the sides. The allocations of a challenge and
of its entry in the queue succeed. -/
def Net.envWith (secret : Side → SecretGet) (n : Net) (s : Side) (i : Input) : Env where
  sIdLocal := C.sId s
  sIdRemote := C.sId s.remote
  secret := secret s
  diffHorodateSec := C.diffHorodateSec
  now := i.now
  rand := i.rand
  pad := i.pad
  uuid := n.uuid
  encodes := i.encodes
  failure := i.failure.filter fun f => !f.ofMemory

abbrev Net.env (n : Net) (s : Side) (i : Input) : Env := n.envWith C C.derived s i

def Net.setPeer (n : Net) (s : Side) (p : Peer) : Net :=
  { n with peer := Function.update n.peer s p }

/-- What a side has not read is lost when it leaves the connection. -/
def Net.leave (n : Net) (s : Side) (p : Peer) : Net :=
  { n.setPeer s p with chan := Function.update n.chan s.remote [] }

/-- After a turn of a task of a side. A turn draws at most two identifiers that anyone
reads. -/
def Net.turn (n : Net) (s : Side) : Turn → Net
  | .ok p => { n.setPeer s p with uuid := n.uuid + 2 }
  | .error file => { n.leave s (.restart file) with uuid := n.uuid + 2 }

/-- A step, `none` where there is none. -/
def applyNetOpWith (secret : Side → SecretGet) (n : Net) : NetOp → Option Net
  | .process s i =>
    if (n.peer s).up then
      some (n.turn s ((n.peer s).cyberReceiveInternal (n.envWith C secret s i)))
    else none
  | .initiate s i =>
    if (n.peer s).up then
      some (n.turn s ((n.peer s).initiateChallenge (n.envWith C secret s i)))
    else none
  | .send s i =>
    if (n.peer s).up then
      let r := (n.peer s).cyberSend (n.envWith C secret s i)
      some { n.setPeer s r.1 with chan := Function.update n.chan s (n.chan s ++ r.2.toList) }
    else none
  | .receive s valid =>
    match (n.peer s).up, n.chan s.remote with
    | true, f :: rest =>
      some { n.setPeer s ((n.peer s).cyberReceive (secret s) valid f) with
        chan := Function.update n.chan s.remote rest }
    | _, _ => none
  | .stop s => some (n.leave s (n.peer s).stop)
  | .restart s => some (n.leave s (.restart (n.peer s).saved))
  | .connect =>
    if (n.peer .a).up ∨ (n.peer .b).up then none
    else some { n with peer := fun s => (n.peer s).start, chan := fun _ => [] }

/-- A step when nothing is cached. -/
abbrev applyNetOp (n : Net) (op : NetOp) : Option Net := applyNetOpWith C C.derived n op

/-- The runs of the two peers from `n₀`. -/
def exchangeSystem (n₀ : Net) : System Net NetOp where
  init n := n = n₀
  step n op n' := applyNetOp C n op = some n'

/-- Two processes that have just loaded their files, and are not connected. -/
structure Net.Idle (n : Net) : Prop where
  saved : ∀ s, (n.peer s).saved = (n.peer s).db
  stopped : ∀ s, (n.peer s).stop = n.peer s
  chan : ∀ s, n.chan s = []

end RsmpGateway.Cyber
