import Mathlib.Tactic.Common
import Ntag424.Session.Session

/-!
# Operations of an Authenticated Session

The operations of `AuthenticatedSession` as one type, so that runs of a session are sequences
of them. An operation that consumes its session hands it back only when it succeeds; the two
plain-mode file operations borrow the session and leave it usable in either case.

## Modelling

* What an operation returns besides the session is dropped.
* A run stops at a panic, which leaves neither a result nor a session.

## Main results

* `wp_consume`, `wp_consumeUnit`, `wp_borrow`: a command on a consumed or borrowed session.
* `Run.invariant`: what holds initially and is kept by every operation holds after every run.
-/

namespace Ntag424

/-- An operation with its arguments. -/
inductive SessionOp where
  | getVersion
  | changeKey (keyNo : NonMasterKeyNumber) (newKey : Key) (newKeyVersion : UInt8) (oldKey : Key)
  | getUid
  | getKeyVersion (keyNo : KeyNumber)
  | getFileSettings (file : File)
  | changeFileSettings (file : File) (settings : FileSettingsUpdate)
  | getFileCounters (file : File)
  | getTtStatus
  | setConfiguration (configuration : Configuration)
  | verifyOriginality (uid : Bytes 7)
  | readFilePlain (file : File) (offset length : UInt32) (buf : List UInt8)
  | writeFilePlain (file : File) (offset : UInt32) (data : List UInt8)
  | readFileWithMode (file : File) (offset length : UInt32) (mode : CommMode) (buf : List UInt8)
  | writeFileWithMode (file : File) (offset : UInt32) (data : List UInt8) (mode : CommMode)
  | readFile (file : File) (offset length : UInt32) (buf : List UInt8)
  | writeFile (file : File) (offset : UInt32) (data : List UInt8)
  | authenticate (keyNo : KeyNumber) (key : Key) (rndA : Bytes 16)

namespace SessionOp

variable {E S β : Type}

/-- The end of an operation: its error, if any, and the session that is left. -/
abbrev End (E S : Type) := Except (SessionError E) Unit × Option (Session (Authenticated S))

/-- An operation that consumes its session. -/
def consuming (op : Task E (Session (Authenticated S))) : Task E (End E S) := do
  match ← op.attempt with
  | .ok session => return (.ok (), some session)
  | .error e => return (.error e, none)

/-- An operation that borrows its session. -/
def borrowing (op : Cmd E (Session (Authenticated S)) β) (session : Session (Authenticated S)) :
    Task E (End E S) := do
  let (r, session) ← op.attempt.on session
  return (r.map fun _ => (), some session)

/-- Keep the session of a result. -/
def dropValue (op : Task E (β × Session (Authenticated S))) :
    Task E (Session (Authenticated S)) := do
  let (_, session) ← op
  return session

variable (P : Primitives) [HandshakeSuite P S]
  (verify : Bytes signatureLen → Bytes 7 → Except OriginalityError Unit)

/-- Perform an operation on a session. -/
def perform (op : SessionOp) (session : Session (Authenticated S)) : Task E (End E S) :=
  match op with
  | getVersion => consuming (dropValue (session.getVersion P))
  | changeKey keyNo newKey newKeyVersion oldKey =>
      consuming (session.changeKey P keyNo newKey newKeyVersion oldKey)
  | getUid => consuming (dropValue (session.getUid P))
  | getKeyVersion keyNo => consuming (dropValue (session.getKeyVersion P keyNo))
  | getFileSettings file => consuming (dropValue (session.getFileSettings P file))
  | changeFileSettings file settings => consuming (session.changeFileSettings P file settings)
  | getFileCounters file => consuming (dropValue (session.getFileCounters P file))
  | getTtStatus => consuming (dropValue (session.getTtStatus P))
  | setConfiguration configuration => consuming (session.setConfiguration P configuration)
  | verifyOriginality uid => consuming do
      let (session, _) ← session.verifyOriginality P verify uid
      return session
  | readFilePlain file offset length buf =>
      borrowing (Session.readFilePlain file offset length buf) session
  | writeFilePlain file offset data => borrowing (Session.writeFilePlain file offset data) session
  | readFileWithMode file offset length mode buf =>
      consuming (dropValue (session.readFileWithMode P file offset length mode buf))
  | writeFileWithMode file offset data mode =>
      consuming (session.writeFileWithMode P file offset data mode)
  | readFile file offset length buf =>
      consuming (dropValue (session.readFile P file offset length buf))
  | writeFile file offset data => consuming (session.writeFile P file offset data)
  | authenticate keyNo key rndA => consuming (session.authenticate P keyNo key rndA)

/-- Perform an operation on a session of either suite. -/
def performEncrypted (op : SessionOp) :
    EncryptedSession → Task E (Except (SessionError E) Unit × Option EncryptedSession)
  | .aes session => do
      let (outcome, left) ← op.perform P verify session
      return (outcome, left.map .aes)
  | .lrp session => do
      let (outcome, left) ← op.perform P verify session
      return (outcome, left.map .lrp)

end SessionOp

/-! ### Commands on sessions -/

section Session

variable {W : Type} {env : (r : List UInt8) → W → Transmit E r → W → Prop} {I : W → Prop} {w : W}
  {session : Session (Authenticated S)} {R : Fault (SessionError E) → Unit → W → Prop}

/-- Consuming a session for a command. -/
theorem wp_consume {cmd : Cmd E (Authenticated S) β}
    {Q : β × Session (Authenticated S) → Unit → W → Prop} :
    (session.consume cmd).wp env I Q R () w ↔
      cmd.wp env I
        (fun b s' w' => Q (b, { session with state := s' }) () w') (fun e _ w' => R e () w')
        session.state w := by
  simp only [Session.consume, Script.wp_bind, Script.wp_on, Script.wp_pure]

theorem wp_consumeUnit {cmd : Cmd E (Authenticated S) Unit}
    {Q : Session (Authenticated S) → Unit → W → Prop} :
    (session.consumeUnit cmd).wp env I Q R () w ↔
      cmd.wp env I
        (fun _ s' w' => Q { session with state := s' } () w') (fun e _ w' => R e () w')
        session.state w := by
  simp only [Session.consumeUnit, Script.wp_bind, Script.wp_pure, wp_consume]

/-- Borrowing a session for a command. -/
theorem wp_borrow {cmd : Cmd E (Authenticated S) β} {Q : β → Session (Authenticated S) → W → Prop}
    {R : Fault (SessionError E) → Session (Authenticated S) → W → Prop} :
    (Session.borrow cmd).wp env I Q R session w ↔
      cmd.wp env I (fun b s' w' => Q b { session with state := s' } w')
        (fun e s' w' => R e { session with state := s' } w') session.state w := by
  rw [Session.borrow]
  exact Script.wp_zoom

theorem wp_dropValue {op : Task E (β × Session (Authenticated S))}
    {Q : Session (Authenticated S) → Unit → W → Prop} :
    (SessionOp.dropValue op).wp env I Q R () w ↔
      op.wp env I (fun r => Q r.2) R () w := by
  simp only [SessionOp.dropValue, Script.wp_bind, Script.wp_pure]

end Session

/-! ### Runs -/

section Run

variable {W : Type} (P : Primitives) [HandshakeSuite P S]
  (verify : Bytes signatureLen → Bytes 7 → Except OriginalityError Unit)
  (env : (r : List UInt8) → W → Transmit E r → W → Prop)
  (allowed : Session (Authenticated S) → W → SessionOp → Prop)

/-- What was done, and how each operation ended. -/
abbrev Log (E : Type) := List (SessionOp × Except (SessionError E) Unit)

/-- A run performs operations, one after the other, as long as a session is left. -/
inductive Run (session₀ : Session (Authenticated S)) (w₀ : W) :
    Log E → Option (Session (Authenticated S)) → W → Prop
  | nil : Run session₀ w₀ [] (some session₀) w₀
  | snoc {log : Log E} {session : Session (Authenticated S)} {w w' : W} {op : SessionOp}
      {outcome : Except (SessionError E) Unit} {left : Option (Session (Authenticated S))} :
      Run session₀ w₀ log (some session) w → allowed session w op →
      Prog.Ends env (op.perform P verify session ()) w (.ok (outcome, left), ()) w' →
      Run session₀ w₀ (log ++ [(op, outcome)]) left w'

variable {P verify env allowed}

/-- **Invariants of runs.** What holds initially and is kept by every operation holds after
every run. -/
theorem Run.invariant {session₀ : Session (Authenticated S)} {w₀ w : W} {log : Log E}
    {left : Option (Session (Authenticated S))}
    {J : Log E → Option (Session (Authenticated S)) → W → Prop}
    (hrun : Run P verify env allowed session₀ w₀ log left w) (h₀ : J [] (some session₀) w₀)
    (hstep : ∀ log session w op, J log (some session) w → allowed session w op →
      (op.perform P verify session).wp env (fun _ => True)
        (fun r _ w' => J (log ++ [(op, r.1)]) r.2 w') (fun _ _ _ => True) () w) :
    J log left w := by
  induction hrun with
  | nil => exact h₀
  | snoc _ hallowed hend ih =>
      have hpost := Script.wp_ends (hstep _ _ _ _ ih hallowed) hend
      exact hpost

end Run

end Ntag424
