import Mathlib.Data.List.Induction
import Mathlib.Tactic.Common
import Ntag424.Lockstep.FileData
import Ntag424.Lockstep.Handshake
import Ntag424.Session.Freshness
import Ntag424.Standard

/-!
# Sessions Stay in Lockstep

Runs of any length of a session against a conforming tag. Host and tag start in lockstep and
are in lockstep after every operation that hands back the session; no operation meets a wrong
response MAC.

## Modelling

* The arguments of an operation meet its documented preconditions: an explicit communication
  mode is the mode the tag demands for the access, and a re-authentication uses the key the tag
  holds.

## Main results

* `wp_perform`: the step lemma, one case for each operation.
* `Run.inStep`: the run lemma.
* `lockstep_run`: what the run lemma says about both suites.
-/

namespace Ntag424

open SecureChannel

variable {P : Primitives} {E S A β : Type}

/-! ### Lockstep -/

/-- Host and card are in a session and agree about it. -/
def Lockstep (P : Primitives) {S A : Type} [LinkedSuite P S] (s : Authenticated S)
    (card : Card A) : Prop :=
  ∃ ts, card.channel = LinkedSuite.channel (P := P) (S := S) ts ∧ Agrees P s ts

section Linked

variable [LinkedSuite P S] {app : TagApp A} {k : KeyNumber} {a : A} {s : Authenticated S}
  {w : Card A}

/-- Agreement with a session of the card is lockstep. -/
theorem Locked.lockstep (h : Locked P k a s w) : Lockstep P s w := by
  obtain ⟨ts, rfl, hs, -⟩ := h
  exact ⟨ts, rfl, hs⟩

/-- In lockstep, the session of the card is that of the host's key. -/
theorem Lockstep.locked (h : Lockstep P s w) : Locked P s.keyNumber w.app s w := by
  obtain ⟨ts, hw, hs⟩ := h
  refine ⟨ts, ?_, hs, hs.keyNumber.symm⟩
  rw [Card.inSession, ← hw]

/-- The same under given communication modes. -/
theorem LockedIn.lockstep {m : UInt8 → FileAccess → CommMode} (h : LockedIn P app k m s w) :
    Lockstep P s w := by
  obtain ⟨a, -, hlock⟩ := h
  exact hlock.lockstep

/-- In lockstep, the communication modes are those of the application. -/
theorem Lockstep.lockedIn (h : Lockstep P s w) :
    LockedIn P app s.keyNumber (app.fileMode w.app s.keyNumber) s w :=
  ⟨w.app, rfl, h.locked⟩

/-- After an executed command both sides are in lockstep. -/
theorem Executed.lockstep {c : AppCommand} {f : List UInt8 → β} {b : β}
    (h : Executed P app k c a f b s w) : Lockstep P s w := by
  obtain ⟨d, a', -, -, hlock⟩ := h
  exact hlock.lockstep

/-! ### Operations on a session -/

variable {session : Session (Authenticated S)}

/-- The end of an operation in lockstep: no wrong response MAC, a session after a success, and
lockstep with whatever session is left. -/
def InStep (P : Primitives) {S A : Type} [LinkedSuite P S] (r : SessionOp.End E S) (_ : Unit)
    (w : Card A) : Prop :=
  r.1 ≠ .error .responseMacMismatch ∧ (r.1 = .ok () → r.2.isSome) ∧
    ∀ session, r.2 = some session → Lockstep P session.state w

/-- A panic, which hands back neither result nor session. -/
def Panics {σ W : Type} (e : Fault (SessionError E)) (_ : σ) (_ : W) : Prop := e = .panicked

/-- An operation that consumes its session and keeps the lockstep when it succeeds. -/
theorem wp_consuming {op : Task E (Session (Authenticated S))}
    (h : op.wp (Prog.Answers (Card.transmit P app)) (fun _ => True)
      (fun session _ => Lockstep P session.state) (NoMismatch (E := E)) () w) :
    (SessionOp.consuming op).wp (Prog.Answers (Card.transmit P app)) (fun _ => True) (InStep P)
      (Panics (E := E)) () w := by
  simp only [SessionOp.consuming, Script.wp_bind, Script.wp_attempt]
  refine Script.wp_mono h (fun session _ w' h' => ?_) fun e _ w' he => ?_
  · exact Script.wp_pure.mpr ⟨nofun, fun _ => rfl, fun _ heq => Option.some.inj heq ▸ h'⟩
  · cases e with
    | error e =>
        refine Script.wp_pure.mpr ⟨fun heq => he ?_, nofun, nofun⟩
        rw [Except.error.inj heq]
    | panicked => rfl

/-- An operation that borrows its session and keeps the lockstep in either case. -/
theorem wp_borrowing {cmd : Cmd E (Authenticated S) β} {k : KeyNumber}
    {m : UInt8 → FileAccess → CommMode}
    (h : cmd.wp (Prog.Answers (Card.transmit P app)) (fun _ => True)
      (fun _ => LockedIn P app k m) (Survived P app k m) session.state w) :
    (SessionOp.borrowing (Session.borrow cmd) session).wp (Prog.Answers (Card.transmit P app))
      (fun _ => True) (InStep P) (Panics (E := E)) () w := by
  simp only [SessionOp.borrowing, Session.borrow, Script.wp_bind, Script.wp_on, Script.wp_attempt,
    Script.wp_zoom, Script.wp_pure]
  refine Script.wp_mono h (fun b s' w' h' => ?_) fun e s' w' he => ?_
  · exact ⟨nofun, fun _ => rfl, fun _ heq => Option.some.inj heq ▸ h'.lockstep⟩
  · cases e with
    | error e =>
        refine ⟨fun heq => he.1 ?_, nofun, fun _ heq => Option.some.inj heq ▸ he.2.lockstep⟩
        rw [Except.error.inj heq]
    | panicked => rfl

/-- A command whose answer the host hands on. -/
theorem wp_consuming_executed {cmd : Cmd E (Authenticated S) β} {c : AppCommand}
    {f : List UInt8 → β} {R : Fault (SessionError E) → Authenticated S → Card A → Prop}
    (h : cmd.wp (Prog.Answers (Card.transmit P app)) (fun _ => True) (Executed P app k c a f) R
      session.state w) (hR : ∀ e s' w', R e s' w' → NoMismatch e s' w') :
    (SessionOp.consuming (SessionOp.dropValue (session.consume cmd))).wp
      (Prog.Answers (Card.transmit P app)) (fun _ => True) (InStep P) (Panics (E := E)) () w := by
  refine wp_consuming ?_
  rw [wp_dropValue, wp_consume]
  exact Script.wp_mono h (fun _ _ _ h' => h'.lockstep) fun e s' w' he => hR e s' w' he

end Linked

/-! ### The step lemma -/

section Honest

variable [HonestSuite P S] {app : TagApp A} {session : Session (Authenticated S)} {w : Card A}

/-- The documented preconditions of an operation: an explicit mode is the one the tag demands,
and the key of a re-authentication is the key of the tag. -/
def SessionOp.Admissible (app : TagApp A) (keyNumber : KeyNumber) (a : A) : SessionOp → Prop
  | readFilePlain file _ _ _ => app.fileMode a keyNumber file.fileNo .read = .plain
  | writeFilePlain file _ _ => app.fileMode a keyNumber file.fileNo .write = .plain
  | readFileWithMode file _ _ mode _ => app.fileMode a keyNumber file.fileNo .read = mode
  | writeFileWithMode file _ _ mode => app.fileMode a keyNumber file.fileNo .write = mode
  | authenticate keyNo key _ => app.key a keyNo = key
  | _ => True

/-- `get_file_settings` keeps the lockstep, and tells the modes of the file. -/
theorem wp_getFileSettings (file : File) (h : Lockstep P session.state w) :
    (session.getFileSettings P file).wp (Prog.Answers (Card.transmit P app)) (fun _ => True)
      (fun r _ w' => ∃ m, LockedIn P app r.2.state.keyNumber m r.2.state w' ∧
        m file.fileNo .read = r.1.readMode r.2.state.keyNumber ∧
        m file.fileNo .write = r.1.writeMode r.2.state.keyNumber)
      (NoMismatch (E := E)) () w := by
  rw [Session.getFileSettings, wp_consume]
  refine Script.wp_mono (wp_getFileSettingsMac file.fileNo h.locked trivial) ?_ fun _ _ _ he => he
  rintro v s' w' ⟨d, a', hexec, hv, hlock⟩
  have hk : s'.keyNumber = session.state.keyNumber := by
    obtain ⟨ts, -, hs, hts⟩ := hlock
    rw [hs.keyNumber, hts]
  obtain ⟨hread, hwrite⟩ := app.fileMode_settings hexec hv
  refine ⟨app.fileMode w.app session.state.keyNumber, ?_, ?_, ?_⟩
  · rw [hk]
    exact .of_exec rfl hexec trivial hlock
  · rw [hk]
    exact hread
  · rw [hk]
    exact hwrite

/-- `authenticate` with the key of the tag: both sides agree about the new session. -/
theorem wp_authenticate (hP : P.Lawful) (keyNo : KeyNumber) (rndA : Bytes 16)
    (h : Lockstep P session.state w) :
    (session.authenticate P keyNo (app.key w.app keyNo) rndA).wp
      (Prog.Answers (Card.transmit P app)) (fun _ => True)
      (fun session _ => Lockstep P session.state)
      (fun (_ : Fault (SessionError E)) _ _ => False) () w := by
  obtain ⟨ts, hw, hs⟩ := h
  obtain ⟨channel, a⟩ := w
  obtain rfl : channel = LinkedSuite.channel (P := P) (S := S) ts := hw
  refine Script.wp_mono (Session.wp_authenticate app hP session ts a keyNo rndA) ?_
    fun _ _ _ he => he
  rintro _ _ _ ⟨rfl, rfl⟩
  exact ⟨_, rfl, rfl, hs.ti, hs.cmdCounter, rfl⟩

/-- **Every operation keeps host and tag in lockstep**, if its arguments are admissible. -/
theorem wp_perform (hP : P.Lawful)
    (verify : Bytes signatureLen → Bytes 7 → Except OriginalityError Unit)
    (op : SessionOp) (hadm : op.Admissible app session.state.keyNumber w.app)
    (h : Lockstep P session.state w) :
    (op.perform P verify session).wp (Prog.Answers (Card.transmit P app)) (fun _ => True) (InStep P)
      (Panics (E := E)) () w := by
  have hrefused : ∀ {c : AppCommand} (e : Fault (SessionError E)) (s' : Authenticated S) w',
      Refused app session.state.keyNumber c w.app e s' w' → NoMismatch e s' w' :=
    fun _ _ _ he => he.noMismatch
  cases op with
  | getVersion =>
      rw [SessionOp.perform, Session.getVersion]
      exact wp_consuming_executed (wp_getVersionMac h.locked fun _ _ => trivial) hrefused
  | changeKey keyNo newKey newKeyVersion oldKey =>
      rw [SessionOp.perform]
      refine wp_consuming ?_
      rw [Session.changeKey, wp_consumeUnit]
      by_cases hown : keyNo.toKeyNumber = session.state.keyNumber
      · exact Script.wp_mono (wp_changeKey_own hP _ _ _ hown h.locked trivial)
          (fun _ _ _ h' => h'.elim) fun _ _ _ he => he
      · exact Script.wp_mono (wp_changeKey hP _ _ _ hown h.locked trivial)
          (fun _ _ _ h' => h'.lockstep) fun _ _ _ he => he.noMismatch
  | getUid =>
      rw [SessionOp.perform, Session.getUid]
      exact wp_consuming_executed (wp_getCardUid hP h.locked trivial) hrefused
  | getKeyVersion keyNo =>
      rw [SessionOp.perform, Session.getKeyVersion]
      exact wp_consuming_executed (wp_getKeyVersion keyNo h.locked trivial) hrefused
  | getFileSettings file =>
      rw [SessionOp.perform]
      refine wp_consuming ?_
      rw [wp_dropValue]
      refine Script.wp_mono (wp_getFileSettings file h) ?_ fun _ _ _ he => he
      rintro r _ w' ⟨m, hlock, -⟩
      exact hlock.lockstep
  | changeFileSettings file settings =>
      rw [SessionOp.perform]
      refine wp_consuming ?_
      rw [Session.changeFileSettings, wp_consumeUnit]
      cases hraw : settings.encode maxChangeFileSettingsLen with
      | ok raw =>
          exact Script.wp_mono (wp_changeFileSettings hP file.fileNo hraw h.locked trivial)
            (fun _ _ _ h' => h'.lockstep) fun _ _ _ he => he.noMismatch
      | error e =>
          simp only [changeFileSettings, hraw, liftSettings, Script.wp_bind, Script.wp_fail]
          rintro ⟨⟩
  | getFileCounters file =>
      rw [SessionOp.perform, Session.getFileCounters]
      exact wp_consuming_executed (wp_getFileCounters hP file.fileNo h.locked trivial)
        fun _ _ _ he => he
  | getTtStatus =>
      rw [SessionOp.perform, Session.getTtStatus]
      exact wp_consuming_executed (wp_getTtStatus hP h.locked trivial) hrefused
  | setConfiguration configuration =>
      rw [SessionOp.perform]
      refine wp_consuming ?_
      rw [Session.setConfiguration, wp_consumeUnit]
      refine Script.wp_mono (wp_setOptions hP (fun o ho => ?_) h.locked) ?_ fun _ _ _ he => he
      · exact (Configuration.length_le ho).trans (by decide)
      · rintro _ s' w' ⟨a', hlock⟩
        exact hlock.lockstep
  | verifyOriginality uid =>
      rw [SessionOp.perform]
      refine wp_consuming ?_
      simp only [Session.verifyOriginality, Script.wp_bind, wp_consume]
      refine Script.wp_mono (wp_readSigMac hP h.locked trivial) ?_ hrefused
      intro sig s' w' h'
      cases hsig : verify sig uid with
      | ok u =>
          simp only [Script.wp_pure]
          exact h'.lockstep
      | error e =>
          simp only [Script.wp_fail]
          rintro ⟨⟩
  | readFilePlain file offset length buf =>
      rw [SessionOp.perform, Session.readFilePlain]
      exact wp_borrowing (wp_readFilePlainChunked hadm offset length buf h.lockedIn)
  | writeFilePlain file offset data =>
      rw [SessionOp.perform, Session.writeFilePlain]
      exact wp_borrowing (wp_writeFilePlainChunked hadm offset data h.lockedIn)
  | readFileWithMode file offset length mode buf =>
      rw [SessionOp.perform]
      refine wp_consuming ?_
      rw [wp_dropValue, Session.readFileWithMode, wp_consume]
      exact Script.wp_mono (wp_readCommand hP file offset length buf hadm h.lockedIn)
        (fun _ _ _ h' => h'.lockstep) fun _ _ _ he => he
  | writeFileWithMode file offset data mode =>
      rw [SessionOp.perform]
      refine wp_consuming ?_
      rw [Session.writeFileWithMode, wp_consumeUnit]
      exact Script.wp_mono (wp_writeCommand hP file offset data hadm h.lockedIn)
        (fun _ _ _ h' => h'.lockstep) fun _ _ _ he => he
  | readFile file offset length buf =>
      rw [SessionOp.perform]
      refine wp_consuming ?_
      simp only [wp_dropValue, Session.readFile, Script.wp_bind]
      refine Script.wp_mono (wp_getFileSettings file h) ?_ fun _ _ _ he => he
      rintro ⟨v, session'⟩ _ w' ⟨m, hlock, hread, -⟩
      rw [Session.readFileWithMode, wp_consume]
      exact Script.wp_mono (wp_readCommand hP file offset length buf hread hlock)
        (fun _ _ _ h' => h'.lockstep) fun _ _ _ he => he
  | writeFile file offset data =>
      rw [SessionOp.perform]
      refine wp_consuming ?_
      simp only [Session.writeFile, Script.wp_bind]
      refine Script.wp_mono (wp_getFileSettings file h) ?_ fun _ _ _ he => he
      rintro ⟨v, session'⟩ _ w' ⟨m, hlock, -, hwrite⟩
      rw [Session.writeFileWithMode, wp_consumeUnit]
      exact Script.wp_mono (wp_writeCommand hP file offset data hwrite hlock)
        (fun _ _ _ h' => h'.lockstep) fun _ _ _ he => he
  | authenticate keyNo key rndA =>
      obtain rfl : app.key w.app keyNo = key := hadm
      rw [SessionOp.perform]
      exact wp_consuming (Script.wp_mono (wp_authenticate hP keyNo rndA h) (fun _ _ _ h' => h')
        fun _ _ _ he => he.elim)

/-- What lockstep means for a log and the session that is left. -/
structure InStepSoFar (P : Primitives) {S A E : Type} [LinkedSuite P S] (log : Log E)
    (left : Option (Session (Authenticated S))) (card : Card A) : Prop where
  noMismatch : ∀ e ∈ log, e.2 ≠ .error .responseMacMismatch
  isSome : ∀ e ∈ log.getLast?, e.2 = .ok () → left.isSome
  lockstep : ∀ session ∈ left, Lockstep P session.state card

/-- **Every run keeps host and tag in lockstep.** -/
theorem Run.inStep (hP : P.Lawful)
    {verify : Bytes signatureLen → Bytes 7 → Except OriginalityError Unit} {log : Log E}
    {left : Option (Session (Authenticated S))} {card : Card A}
    (hrun : Run P verify (Prog.Answers (Card.transmit P app))
      (fun session card op => op.Admissible app session.state.keyNumber card.app) session w log
      left card) (h : Lockstep P session.state w) : InStepSoFar P log left card := by
  have hstart : InStepSoFar P ([] : Log E) (some session) w :=
    ⟨by simp, by simp, fun _ hs => Option.some.inj hs ▸ h⟩
  refine hrun.invariant (J := InStepSoFar P) hstart ?_
  · intro log session card op hlog hadm
    refine Script.wp_mono (wp_perform hP verify op hadm (hlog.lockstep _ rfl)) ?_
      fun _ _ _ _ => trivial
    rintro ⟨outcome, left⟩ _ card' ⟨hno, hok, hlock⟩
    refine ⟨?_, ?_, hlock⟩
    · intro e he
      rcases List.mem_append.mp he with he | he
      · exact hlog.noMismatch e he
      · obtain rfl := List.mem_singleton.mp he
        exact hno
    · intro e he hout
      rw [List.getLast?_concat] at he
      obtain rfl := Option.some.inj he
      exact hok hout

/-! ### Asking a blank card for key versions -/

/-- A blank card answers a request for a key version. -/
theorem wp_keyVersion_blank {session : Session (Authenticated S)} {w : Card Unit}
    (verify : Bytes signatureLen → Bytes 7 → Except OriginalityError Unit)
    (h : Lockstep P session.state w) :
    ((SessionOp.getKeyVersion .key0).perform P verify session).wp
      (Prog.Answers (Card.transmit P .blank)) (fun _ => True)
      (fun r _ w' => ∃ session', r = (.ok (), some session') ∧ Lockstep P session'.state w' ∧
        session'.state.cmdCounter = session.state.cmdCounter + 1 ∧
        session'.state.history = session.state.history ++
          [.commandMac session.state.cmdCounter, .responseMac (session.state.cmdCounter + 1)])
      (fun (_ : Fault (SessionError E)) _ _ => False) () w := by
  simp only [SessionOp.perform, Session.getKeyVersion, SessionOp.consuming, Script.wp_bind,
    Script.wp_attempt, wp_dropValue, wp_consume]
  refine Script.wp_mono (Script.wp_and (wp_getKeyVersion .key0 h.locked trivial)
    (wp_getKeyVersion_history .key0)) ?_ ?_
  · rintro v s' w' ⟨hexec, hctr, hhist⟩
    exact Script.wp_pure.mpr ⟨_, rfl, hexec.lockstep, hctr, hhist⟩
  · rintro e s' w' ⟨⟨e', a', hexec, -, -⟩, -⟩
    cases hexec

/-- The uses of the counter in `n` exchanges with a command MAC and a response MAC. -/
def macUses (c : UInt16) (n : ℕ) : List CounterUse :=
  (List.range n).flatMap fun i =>
    [.commandMac (c + UInt16.ofNat i), .responseMac (c + UInt16.ofNat i + 1)]

/-- One more exchange adds its two uses at the end. -/
theorem macUses_succ (c : UInt16) (n : ℕ) : macUses c (n + 1) = macUses c n ++
    [.commandMac (c + UInt16.ofNat n), .responseMac (c + UInt16.ofNat n + 1)] := by
  simp [macUses, List.range_succ]

/-- Every exchange has two uses. -/
@[simp] theorem length_macUses (c : UInt16) (n : ℕ) : (macUses c n).length = 2 * n := by
  induction n with
  | zero => rfl
  | succ n ih =>
      rw [macUses_succ, List.length_append, ih, List.length_cons, List.length_singleton]
      omega

/-- The uses of the `i`-th exchange. -/
theorem getElem?_macUses {c : UInt16} {n i : ℕ} (h : i < n) :
    (macUses c n)[2 * i]? = some (.commandMac (c + UInt16.ofNat i)) ∧
      (macUses c n)[2 * i + 1]? = some (.responseMac (c + UInt16.ofNat i + 1)) := by
  induction n with
  | zero => exact absurd h (Nat.not_lt_zero i)
  | succ n ih =>
      rw [macUses_succ]
      rcases Nat.lt_succ_iff_lt_or_eq.mp h with hlt | rfl
      · obtain ⟨hcmd, hresp⟩ := ih hlt
        rw [List.getElem?_append_left (by rw [length_macUses]; omega), hcmd,
          List.getElem?_append_left (by rw [length_macUses]; omega), hresp]
        exact ⟨rfl, rfl⟩
      · rw [List.getElem?_append_right (by rw [length_macUses]),
          List.getElem?_append_right (by rw [length_macUses]; omega), length_macUses,
          Nat.sub_self, Nat.add_sub_cancel_left]
        exact ⟨rfl, rfl⟩

/-- A run of any number of requests for a key version. -/
theorem Run.keyVersions {session : Session (Authenticated S)} {w : Card Unit}
    (verify : Bytes signatureLen → Bytes 7 → Except OriginalityError Unit)
    {allowed : Session (Authenticated S) → Card Unit → SessionOp → Prop}
    (hallowed : ∀ session card, allowed session card (.getKeyVersion .key0))
    (h : Lockstep P session.state w) (n : ℕ) :
    ∃ session' w', Run P verify (Prog.Answers (Card.transmit P .blank)) allowed session w
        (List.replicate n (.getKeyVersion .key0, (.ok () : Except (SessionError E) Unit)))
        (some session') w' ∧
      Lockstep P session'.state w' ∧
      session'.state.cmdCounter = session.state.cmdCounter + UInt16.ofNat n ∧
      session'.state.history = session.state.history ++ macUses session.state.cmdCounter n := by
  induction n with
  | zero => exact ⟨session, w, .nil, h, (UInt16.add_zero _).symm, (List.append_nil _).symm⟩
  | succ n ih =>
      obtain ⟨s₁, w₁, hrun, hlock, hctr, hhist⟩ := ih
      obtain ⟨r, _, w₂, hend, s₂, rfl, hlock', hctr', hhist'⟩ :=
        Script.exists_ends (wp_keyVersion_blank (E := E) verify hlock)
      refine ⟨s₂, w₂, ?_, hlock', ?_, ?_⟩
      · rw [List.replicate_succ']
        exact hrun.snoc (hallowed _ _) hend
      · rw [hctr', hctr, UInt16.ofNat_add, UInt16.add_assoc]
        rfl
      · rw [hhist', hhist, hctr, macUses_succ, List.append_assoc]

/-! ### Asking a card about itself -/

/-- A command that the card answers. -/
theorem wp_consuming_answered {cmd : Cmd E (Authenticated S) β} {c : AppCommand}
    {f : List UInt8 → β} {k : KeyNumber} {a : A} {d : List UInt8}
    (hanswer : ∀ k a, app.exec k c a = (.ok d, a))
    (h : cmd.wp (Prog.Answers (Card.transmit P app)) (fun _ => True) (Executed P app k c a f)
      (Refused (E := E) app k c a) session.state w) :
    (SessionOp.consuming (SessionOp.dropValue (session.consume cmd))).wp
      (Prog.Answers (Card.transmit P app)) (fun _ => True)
      (fun r _ w' => ∃ session', r = (.ok (), some session') ∧ Lockstep P session'.state w')
      (fun (_ : Fault (SessionError E)) _ _ => False) () w := by
  simp only [SessionOp.consuming, Script.wp_bind, Script.wp_attempt, wp_dropValue, wp_consume]
  refine Script.wp_mono h ?_ ?_
  · rintro b s' w' hexec
    exact Script.wp_pure.mpr ⟨_, rfl, hexec.lockstep⟩
  · rintro e s' w' ⟨e', a', hexec, -, -⟩
    rw [hanswer] at hexec
    cases (Prod.mk.inj hexec).1

/-- What `TagApp.answering` accepts: questions about the tag, and another session. -/
def SessionOp.IsQuestion : SessionOp → Prop
  | getVersion | getUid | getTtStatus | getKeyVersion _ => True
  | authenticate _ key _ => key = Bytes.zeros 16
  | _ => False

/-- A question is answered. -/
theorem wp_question (hP : P.Lawful)
    (verify : Bytes signatureLen → Bytes 7 → Except OriginalityError Unit) {op : SessionOp}
    (hop : op.IsQuestion) {w : Card Unit} (h : Lockstep P session.state w) :
    (op.perform P verify session).wp (Prog.Answers (Card.transmit P .answering)) (fun _ => True)
      (fun r _ w' => ∃ session', r = (.ok (), some session') ∧ Lockstep P session'.state w')
      (fun (_ : Fault (SessionError E)) _ _ => False) () w := by
  cases op with
  | getVersion =>
      exact wp_consuming_answered (fun _ _ => rfl) (wp_getVersionMac h.locked fun _ _ => trivial)
  | getUid => exact wp_consuming_answered (fun _ _ => rfl) (wp_getCardUid hP h.locked trivial)
  | getTtStatus => exact wp_consuming_answered (fun _ _ => rfl) (wp_getTtStatus hP h.locked trivial)
  | getKeyVersion keyNo =>
      exact wp_consuming_answered (fun _ _ => rfl) (wp_getKeyVersion keyNo h.locked trivial)
  | authenticate keyNo key rndA =>
      obtain rfl : key = Bytes.zeros 16 := hop
      simp only [SessionOp.perform, SessionOp.consuming, Script.wp_bind, Script.wp_attempt]
      refine Script.wp_mono (wp_authenticate hP keyNo rndA h) ?_ fun _ _ _ he => he.elim
      intro session' _ w' h'
      exact Script.wp_pure.mpr ⟨session', rfl, h'⟩
  | _ => exact hop.elim

/-- A run of any questions. -/
theorem Run.questions (hP : P.Lawful)
    (verify : Bytes signatureLen → Bytes 7 → Except OriginalityError Unit) {w : Card Unit}
    {allowed : Session (Authenticated S) → Card Unit → SessionOp → Prop} {ops : List SessionOp}
    (hops : ∀ op ∈ ops, op.IsQuestion)
    (hallowed : ∀ session card, ∀ op ∈ ops, allowed session card op)
    (h : Lockstep P session.state w) :
    ∃ session' w', Run P verify (Prog.Answers (Card.transmit P .answering)) allowed session w
        (ops.map fun op => (op, (.ok () : Except (SessionError E) Unit))) (some session') w' ∧
      Lockstep P session'.state w' := by
  induction ops using List.reverseRecOn with
  | nil => exact ⟨session, w, .nil, h⟩
  | append_singleton ops op ih =>
      have hlast : op ∈ ops ++ [op] := List.mem_append_right _ (List.mem_singleton_self op)
      obtain ⟨s₁, w₁, hrun, hlock⟩ := ih
        (fun o ho => hops o (List.mem_append_left _ ho))
        (fun session card o ho => hallowed session card o (List.mem_append_left _ ho))
      obtain ⟨r, _, w₂, hend, s₂, rfl, hlock'⟩ :=
        Script.exists_ends (wp_question (E := E) hP verify (hops op hlast) hlock)
      refine ⟨s₂, w₂, ?_, hlock'⟩
      rw [List.map_append]
      exact hrun.snoc (hallowed _ _ op hlast) hend

end Honest

/-! ### Both suites -/

/-- An AES session and the session of the card share keys, transaction identifier and command
counter. -/
def AesLockstep (s : Authenticated AesSuite) (card : Card A) : Prop :=
  ∃ ts, card.channel = .aes ts ∧ s.keyNumber = ts.keyNo ∧ s.ti = ts.ti ∧
    s.cmdCounter.toNat = ts.cmdCtr % 2 ^ 16 ∧ s.suite = ts.keys

/-- An LRP session and the session of the card share keys, transaction identifier, command
counter and block counter. -/
def LrpLockstep (s : Authenticated LrpSuite) (card : Card A) : Prop :=
  ∃ ts, card.channel = .lrp ts ∧ s.keyNumber = ts.keyNo ∧ s.ti = ts.ti ∧
    s.cmdCounter.toNat = ts.cmdCtr % 2 ^ 16 ∧ s.suite.toLrpKeys = ts.keys ∧
    s.suite.encCtr.toNat = ts.encCtr % 2 ^ 32

/-- The command counter of the host is that of the tag modulo `2^16`. -/
theorem cmdCounter_eq_iff {c : UInt16} {n : ℕ} :
    c = UInt16.ofNat n ↔ c.toNat = n % 2 ^ 16 := by
  rw [← UInt16.toNat_inj, UInt16.toNat_ofNat']

/-- For AES, agreeing about the suite is sharing the keys. -/
theorem lockstep_iff_aesLockstep {s : Authenticated AesSuite} {card : Card A} :
    Lockstep P s card ↔ AesLockstep s card := by
  constructor
  · rintro ⟨ts, hcard, hs⟩
    exact ⟨ts, hcard, hs.keyNumber, hs.ti, cmdCounter_eq_iff.mp hs.cmdCounter, hs.suite⟩
  · rintro ⟨ts, hcard, hk, hti, hctr, hsuite⟩
    exact ⟨ts, hcard, hk, hti, cmdCounter_eq_iff.mpr hctr, hsuite⟩

/-- For LRP, agreeing about the suite is sharing the keys and the block counter. -/
theorem lockstep_iff_lrpLockstep {s : Authenticated LrpSuite} {card : Card A} :
    Lockstep P s card ↔ LrpLockstep s card := by
  constructor
  · rintro ⟨ts, hcard, hs⟩
    refine ⟨ts, hcard, hs.keyNumber, hs.ti, cmdCounter_eq_iff.mp hs.cmdCounter, ?_, ?_⟩
    · rw [hs.suite]
      rfl
    · rw [hs.suite]
      exact UInt32.toNat_ofNat' ..
  · rintro ⟨ts, hcard, hk, hti, hctr, hkeys, henc⟩
    refine ⟨ts, hcard, hk, hti, cmdCounter_eq_iff.mpr hctr, ?_⟩
    have henc' : s.suite.encCtr = UInt32.ofNat ts.encCtr := by
      rw [← UInt32.toNat_inj, UInt32.toNat_ofNat', henc]
    calc s.suite = ⟨s.suite.toLrpKeys, s.suite.encCtr⟩ := rfl
      _ = ⟨ts.keys, UInt32.ofNat ts.encCtr⟩ := by rw [hkeys, henc']

/-- **Host and tag stay in lockstep** in both suites: along every run of a session with a
conforming tag, whatever session is left agrees with the tag, a success leaves a session, and
no operation fails with a wrong response MAC. -/
theorem lockstep_run (hP : P.Lawful) (app : TagApp A)
    (verify : Bytes signatureLen → Bytes 7 → Except OriginalityError Unit) :
    (∀ {session₀ : Session (Authenticated AesSuite)} {card₀ card : Card A} {log : Log E}
      {left : Option (Session (Authenticated AesSuite))}, AesLockstep session₀.state card₀ →
      Run P verify (Prog.Answers (Card.transmit P app))
        (fun session card op => op.Admissible app session.state.keyNumber card.app) session₀ card₀
        log left card →
      (∀ e ∈ log, e.2 ≠ .error .responseMacMismatch) ∧
        (∀ e ∈ log.getLast?, e.2 = .ok () → left.isSome) ∧
        ∀ session ∈ left, AesLockstep session.state card) ∧
    (∀ {session₀ : Session (Authenticated LrpSuite)} {card₀ card : Card A} {log : Log E}
      {left : Option (Session (Authenticated LrpSuite))}, LrpLockstep session₀.state card₀ →
      Run P verify (Prog.Answers (Card.transmit P app))
        (fun session card op => op.Admissible app session.state.keyNumber card.app) session₀ card₀
        log left card →
      (∀ e ∈ log, e.2 ≠ .error .responseMacMismatch) ∧
        (∀ e ∈ log.getLast?, e.2 = .ok () → left.isSome) ∧
        ∀ session ∈ left, LrpLockstep session.state card) := by
  constructor
  · intro session₀ card₀ card log left h hrun
    obtain ⟨hno, hok, hlock⟩ := hrun.inStep hP (lockstep_iff_aesLockstep.mpr h)
    exact ⟨hno, hok, fun session hs => lockstep_iff_aesLockstep.mp (hlock session hs)⟩
  · intro session₀ card₀ card log left h hrun
    obtain ⟨hno, hok, hlock⟩ := hrun.inStep hP (lockstep_iff_lrpLockstep.mpr h)
    exact ⟨hno, hok, fun session hs => lockstep_iff_lrpLockstep.mp (hlock session hs)⟩

/-- Questions to a card about itself, with a change to the session of another key between them. -/
def questions : List SessionOp :=
  [.getVersion, .getUid, .getKeyVersion .key2,
    .authenticate .key1 (Bytes.zeros 16) (Bytes.zeros 16), .getTtStatus, .getKeyVersion .key0]

/-- All of them are questions. -/
theorem isQuestion_questions : ∀ op ∈ questions, op.IsQuestion := by
  simp [questions, SessionOp.IsQuestion]

/-- A session of a card in AES mode, before its first command. -/
theorem exists_aesLockstep : ∃ (session : Session (Authenticated AesSuite)) (card : Card Unit),
    AesLockstep session.state card ∧ session.state.history = [] := by
  let ts : TagSession AesSuite :=
    ⟨.key0, ⟨Bytes.zeros 16, Bytes.zeros 16⟩, Bytes.zeros 4, 0, 0, .none⟩
  let session : Session (Authenticated AesSuite) :=
    ⟨.withAuthResult ⟨ts.keys, ts.ti, Bytes.zeros 6, Bytes.zeros 6⟩ ts.keyNo, true, none⟩
  exact ⟨session, ⟨.aes ts, ()⟩, ⟨ts, rfl, rfl, rfl, rfl, rfl⟩, rfl⟩

/-- A session of a card in LRP mode, before its first command. -/
theorem exists_lrpLockstep : ∃ (session : Session (Authenticated LrpSuite)) (card : Card Unit),
    LrpLockstep session.state card := by
  let keys : LrpKeys := LrpSuite.deriveKeys .standard (Bytes.zeros 16) (Bytes.zeros 16)
    (Bytes.zeros 16)
  let ts : TagSession LrpKeys := ⟨.key0, keys, Bytes.zeros 4, 0, 1, .none⟩
  let session : Session (Authenticated LrpSuite) :=
    ⟨.withAuthResult ⟨⟨keys, 1⟩, ts.ti, Bytes.zeros 6, Bytes.zeros 6⟩ ts.keyNo, true, none⟩
  exact ⟨session, ⟨.lrp ts, ()⟩, ⟨ts, rfl, rfl, rfl, rfl, rfl, rfl⟩⟩

/-- Both suites, with the standard primitives: a card answers six questions, in two sessions. -/
theorem lockstep_run_questions :
    (∃ (session₀ session : Session (Authenticated AesSuite)) (card₀ card : Card Unit),
      AesLockstep session₀.state card₀ ∧
      Run (E := Empty) .standard (fun _ _ => .ok ())
        (Prog.Answers (Card.transmit .standard .answering))
        (fun session card op => op.Admissible .answering session.state.keyNumber card.app) session₀
        card₀ (questions.map fun op => (op, .ok ())) (some session) card ∧
      AesLockstep session.state card) ∧
    ∃ (session₀ session : Session (Authenticated LrpSuite)) (card₀ card : Card Unit),
      LrpLockstep session₀.state card₀ ∧
      Run (E := Empty) .standard (fun _ _ => .ok ())
        (Prog.Answers (Card.transmit .standard .answering))
        (fun session card op => op.Admissible .answering session.state.keyNumber card.app) session₀
        card₀ (questions.map fun op => (op, .ok ())) (some session) card ∧
      LrpLockstep session.state card := by
  have hrun := lockstep_run (E := Empty) Primitives.standard_lawful TagApp.answering
    fun _ _ => .ok ()
  have hadm : ∀ (k : KeyNumber) (card : Card Unit), ∀ op ∈ questions,
      op.Admissible .answering k card.app := by
    simp [questions, SessionOp.Admissible, TagApp.answering]
  constructor
  · obtain ⟨session₀, card₀, hstart, -⟩ := exists_aesLockstep
    obtain ⟨session, card, h, -⟩ := Run.questions (P := .standard) Primitives.standard_lawful
      (fun _ _ => .ok ()) isQuestion_questions
      (fun session card => hadm session.state.keyNumber card)
      (lockstep_iff_aesLockstep.mpr hstart)
    exact ⟨session₀, session, _, card, hstart, h, (hrun.1 hstart h).2.2 session rfl⟩
  · obtain ⟨session₀, card₀, hstart⟩ := exists_lrpLockstep
    obtain ⟨session, card, h, -⟩ := Run.questions (P := .standard) Primitives.standard_lawful
      (fun _ _ => .ok ()) isQuestion_questions
      (fun session card => hadm session.state.keyNumber card)
      (lockstep_iff_lrpLockstep.mpr hstart)
    exact ⟨session₀, session, _, card, hstart, h, (hrun.2 hstart h).2.2 session rfl⟩

end Ntag424
