import Mathlib.Tactic.Common
import Ntag424.HighLevel.DocumentedTag
import Ntag424.Session.Operations
import Ntag424.Tag.DeliveredProfile

/-!
# A Session as a Machine

What the operations of an authenticated session are for: each returns something and does something
to the profile of the tag, and no more than that is said here (`SessionOp.effect`). A session over
the wire, with its frames, chunks, MACs, encryption and counters, refines this machine.

## Modelling

* An operation has an effect if the tag has to accept it: the right is granted, the mode is that of
  the file, the old key is the one that the tag holds, and the tag says what it does.
* The read counter of a file is not part of a profile, and a length of zero, which asks for the rest
  of a file, is left open.
* Options that switch the tag to LRP mode have no effect, because they end the session.

## Main results

* `InProfile.wp_query`: one operation, in a session of either suite.
* `InProfile.wp_queries`: operations one after the other.
* `Card.exists_queried`: a session from its authentication on.
-/

namespace Ntag424

open Numerals

/-! ### The machine -/

/-- What an operation returns besides its session. -/
inductive Reply where
  | done
  | version (version : Version)
  | uid (uid : Bytes 7)
  | keyVersion (version : UInt8)
  | settings (settings : FileSettingsView)
  | tamperStatus (status : TagTamperStatusReadout)
  | signature (signature : Bytes signatureLen)
  | counter (value : ℕ)
  | bytes (count : ℕ) (buf : List UInt8)

namespace Profile

/-- What a session of a key reads of a file into a buffer. -/
def read (c : Profile) (k : KeyNumber) (mode : CommMode) (file : File) (offset length : ℕ)
    (buf : List UInt8) : Option Reply :=
  if (c.settings file).readMode k = mode ∧ (c.settings file).Readable k ∧ length ≠ 0 ∧
      offset + length ≤ file.size ∧ length ≤ buf.length then
    some (.bytes length (overlay buf 0 (slice (c.contents file).toList offset length)))
  else none

/-- The profile after a session of a key wrote to a file. -/
def write (c : Profile) (k : KeyNumber) (mode : CommMode) (file : File) (offset : ℕ)
    (data : List UInt8) : Option Profile :=
  if (c.settings file).writeMode k = mode ∧ (c.settings file).Writable k ∧ data ≠ [] ∧
      offset + data.length ≤ file.size then
    some (c.written file offset data)
  else none

/-- The profile after a session of a key changed the settings of a file. -/
def changeSettings (c : Profile) (k : KeyNumber) (file : File) (u : FileSettingsUpdate) :
    Option Profile :=
  if (c.settings file).accessRights.change.Admits k then
    match u.encode maxChangeFileSettingsLen with
    | .ok raw =>
        match FileSettingsView.decode (payloadWith raw file.size) with
        | .ok v => some (c.withSettings file v)
        | .error _ => none
    | .error _ => none
  else none

end Profile

/-- What an operation in a session of a key returns, the key of the session afterwards, and the
profile that it leaves. -/
def SessionOp.effect (verify : Bytes signatureLen → Bytes 7 → Except OriginalityError Unit)
    (k : KeyNumber) (c : Profile) : SessionOp → Option (Reply × KeyNumber × Profile)
  | .getVersion => some (.version c.version, k, c)
  | .changeKey keyNo newKey version oldKey =>
      if k = .key0 ∧ c.keys keyNo.toKeyNumber = oldKey then
        some (.done, k, c.changedKey keyNo.toKeyNumber newKey version)
      else none
  | .getUid => some (.uid c.uid, k, c)
  | .getKeyVersion keyNo => some (.keyVersion (c.keyVersions keyNo), k, c)
  | .getFileSettings file => some (.settings (c.settings file), k, c)
  | .changeFileSettings file u => (c.changeSettings k file u).map fun c' => (.done, k, c')
  | .getFileCounters _ => none
  | .getTtStatus =>
      (c.tamperReport k).map fun d => (.tamperStatus (.new (d.byte 0) (d.byte 1)), k, c)
  | .setConfiguration configuration =>
      if k = .key0 then
        (c.configuredAll configuration.build).bind fun c' =>
          if c'.lrpMode = c.lrpMode then some (.done, k, c') else none
      else none
  | .verifyOriginality uid =>
      if verify c.signature uid = .ok () then some (.signature c.signature, k, c) else none
  | .readFilePlain file offset length buf =>
      (c.read k .plain file offset.toNat length.toNat buf).map fun r => (r, k, c)
  | .writeFilePlain file offset data =>
      (c.write k .plain file offset.toNat data).map fun c' => (.done, k, c')
  | .readFileWithMode file offset length mode buf =>
      (c.read k mode file offset.toNat length.toNat buf).map fun r => (r, k, c)
  | .writeFileWithMode file offset data mode =>
      (c.write k mode file offset.toNat data).map fun c' => (.done, k, c')
  | .readFile file offset length buf =>
      (c.read k ((c.settings file).readMode k) file offset.toNat length.toNat buf).map fun r =>
        (r, k, c)
  | .writeFile file offset data =>
      (c.write k ((c.settings file).writeMode k) file offset.toNat data).map fun c' =>
        (.done, k, c')
  | .authenticate keyNo key _ => if c.keys keyNo = key then some (.done, keyNo, c) else none

/-- The effects of operations, one after the other. -/
def effects (verify : Bytes signatureLen → Bytes 7 → Except OriginalityError Unit)
    (k : KeyNumber) (c : Profile) : List SessionOp → Option (List Reply × KeyNumber × Profile)
  | [] => some ([], k, c)
  | op :: ops =>
      (op.effect verify k c).bind fun first =>
        (effects verify first.2.1 first.2.2 ops).map fun rest => (first.1 :: rest.1, rest.2)

/-! ### Sessions -/

section Sessions

variable {E : Type} (P : Primitives)

namespace EncryptedSession

/-- `get_version`. -/
def getVersion (session : EncryptedSession) : Task E (Version × EncryptedSession) :=
  session.dispatchValue P fun _ _ s => s.getVersion P

/-- `get_key_version`. -/
def getKeyVersion (session : EncryptedSession) (keyNo : KeyNumber) :
    Task E (UInt8 × EncryptedSession) :=
  session.dispatchValue P fun _ _ s => s.getKeyVersion P keyNo

/-- `read_file_plain`. -/
def readFilePlain (session : EncryptedSession) (file : File) (offset length : UInt32)
    (buf : List UInt8) : Task E ((ℕ × List UInt8) × EncryptedSession) :=
  session.dispatchValue P fun _ _ s => (Session.readFilePlain file offset length buf).on s

/-- `write_file_plain`. -/
def writeFilePlain (session : EncryptedSession) (file : File) (offset : UInt32)
    (data : List UInt8) : Task E EncryptedSession :=
  session.dispatch P fun _ _ s => do
    let (_, s) ← (Session.writeFilePlain file offset data).on s
    return s

/-- `get_file_counters`. -/
def getFileCounters (session : EncryptedSession) (file : File) :
    Task E (ℕ × EncryptedSession) :=
  session.dispatchValue P fun _ _ s => s.getFileCounters P file

end EncryptedSession

variable (verify : Bytes signatureLen → Bytes 7 → Except OriginalityError Unit)

/-- Hand on what an operation returns. -/
def returning {β : Type} (f : β → Reply) (op : Task E (β × EncryptedSession)) :
    Task E (Reply × EncryptedSession) := do
  let (b, session) ← op
  return (f b, session)

/-- An operation that returns its session only. -/
def finishing (op : Task E EncryptedSession) : Task E (Reply × EncryptedSession) := do
  let session ← op
  return (.done, session)

/-- Perform an operation and keep what it returns. -/
def SessionOp.query (session : EncryptedSession) :
    SessionOp → Task E (Reply × EncryptedSession)
  | .getVersion => returning .version (session.getVersion P)
  | .changeKey keyNo newKey version oldKey =>
      finishing (session.changeKey P keyNo newKey version oldKey)
  | .getUid => returning .uid (session.getUid P)
  | .getKeyVersion keyNo => returning .keyVersion (session.getKeyVersion P keyNo)
  | .getFileSettings file => returning .settings (session.getFileSettings P file)
  | .changeFileSettings file u => finishing (session.changeFileSettings P file u)
  | .getFileCounters file => returning .counter (session.getFileCounters P file)
  | .getTtStatus => returning .tamperStatus (session.getTtStatus P)
  | .setConfiguration configuration => finishing (session.setConfiguration P configuration)
  | .verifyOriginality uid => returning .signature (session.verifyOriginality P verify uid)
  | .readFilePlain file offset length buf =>
      returning (fun r => .bytes r.1 r.2) (session.readFilePlain P file offset length buf)
  | .writeFilePlain file offset data => finishing (session.writeFilePlain P file offset data)
  | .readFileWithMode file offset length mode buf =>
      returning (fun r => .bytes r.1 r.2) (session.readFileWithMode P file offset length mode buf)
  | .writeFileWithMode file offset data mode =>
      finishing (session.writeFileWithMode P file offset data mode)
  | .readFile file offset length buf =>
      returning (fun r => .bytes r.1 r.2) (session.readFile P file offset length buf)
  | .writeFile file offset data => finishing (session.writeFile P file offset data)
  | .authenticate keyNo key rndA => finishing (session.authenticate P keyNo key rndA)

/-- Operations one after the other. -/
def queries : List SessionOp → EncryptedSession → Task E (List Reply × EncryptedSession)
  | [], session => return ([], session)
  | op :: ops, session => do
      let (reply, session) ← op.query P verify session
      let (replies, session) ← queries ops session
      return (reply :: replies, session)

end Sessions

/-! ### One operation -/

section Operations

variable {P : Primitives} {E A β : Type} {app : TagApp A} {profile : A → Profile} {k : KeyNumber}
  {c c' : Profile} {session : EncryptedSession} {w : Card A}

namespace AtProfile

variable {S : Type} [HonestSuite P S] {s : Authenticated S}

/-- `get_version`. -/
theorem wp_getVersion (happ : app.Documented profile) (h : AtProfile P k profile c s w) :
    (getVersionMac P).wp (Prog.Answers (Card.transmit P app)) (fun _ => True)
      (fun v s' w' => v = c.version ∧ AtProfile P k profile c s' w')
      (fun (_ : Fault (SessionError E)) _ _ => False) s w := by
  obtain ⟨a, hlock, rfl⟩ := h
  refine Script.wp_mono (wp_performed (wp_getVersionMac hlock fun _ _ => trivial)
    (happ.getVersion a k)) ?_ fun _ _ _ he => he
  rintro v s' w' ⟨rfl, h'⟩
  refine ⟨?_, h'⟩
  obtain ⟨part1, part2, part3⟩ := (profile a).version
  have h1 : part1.toList.length = 7 := Bytes.length_toList _
  have h2 : part2.toList.length = 7 := Bytes.length_toList _
  have hfirst : (part1.toList ++ part2.toList ++ part3.toList).take 7 = part1.toList := by
    rw [List.append_assoc, List.take_left' h1]
  have hsecond : slice (part1.toList ++ part2.toList ++ part3.toList) 7 7 = part2.toList := by
    rw [slice, List.append_assoc, List.drop_left' h1, List.take_left' h2]
  have hthird : (part1.toList ++ part2.toList ++ part3.toList).drop 14 = part3.toList :=
    List.drop_left' (by rw [List.length_append, h1, h2])
  simp only [Version.toList, hfirst, hsecond, hthird, Bytes.fill_toList]

/-- `get_key_version`. -/
theorem wp_getKeyVersion (happ : app.Documented profile) (h : AtProfile P k profile c s w)
    (keyNo : KeyNumber) :
    (getKeyVersion P keyNo).wp (Prog.Answers (Card.transmit P app)) (fun _ => True)
      (fun v s' w' => v = c.keyVersions keyNo ∧ AtProfile P k profile c s' w')
      (fun (_ : Fault (SessionError E)) _ _ => False) s w := by
  obtain ⟨a, hlock, rfl⟩ := h
  exact wp_performed (Ntag424.wp_getKeyVersion keyNo hlock trivial) (happ.getKeyVersion a k keyNo)

end AtProfile

namespace InProfile

/-- What was granted of a read. -/
theorem read_eq_some {mode : CommMode} {file : File} {offset length : ℕ} {buf : List UInt8}
    {r : Reply} (h : c.read k mode file offset length buf = some r) :
    r = .bytes length (overlay buf 0 (slice (c.contents file).toList offset length)) ∧
      AtProfile.Offered c k mode file offset length ∧ length ≤ buf.length := by
  rw [Profile.read] at h
  split at h
  · rename_i hgranted
    obtain ⟨hmode, hreadable, hne, hwithin, hbuf⟩ := hgranted
    exact ⟨(Option.some.inj h).symm, ⟨hmode, hreadable, hne, hwithin⟩, hbuf⟩
  · cases h

/-- What was granted of a write. -/
theorem write_eq_some {mode : CommMode} {file : File} {offset : UInt32} {data : List UInt8}
    (h : c.write k mode file offset.toNat data = some c') :
    c' = c.written file offset.toNat data ∧ AtProfile.Accepted c k mode file offset data := by
  rw [Profile.write] at h
  split at h
  · rename_i hgranted
    obtain ⟨hmode, hwritable, hne, hwithin⟩ := hgranted
    exact ⟨(Option.some.inj h).symm, hmode, hwritable, hne, hwithin⟩
  · cases h

/-- Settings that were changed. -/
theorem changeSettings_eq_some {file : File} {u : FileSettingsUpdate}
    (h : c.changeSettings k file u = some c') :
    ∃ raw v, (c.settings file).accessRights.change.Admits k ∧
      u.encode maxChangeFileSettingsLen = .ok raw ∧
      FileSettingsView.decode (payloadWith raw file.size) = .ok v ∧ c' = c.withSettings file v := by
  rw [Profile.changeSettings] at h
  split at h
  · rename_i hchange
    split at h
    · rename_i raw hraw
      split at h
      · rename_i v hdecode
        exact ⟨raw, v, hchange, hraw, hdecode, (Option.some.inj h).symm⟩
      · cases h
    · cases h
  · cases h

/-- An operation with a result. -/
theorem wp_returning {op : Task E (β × EncryptedSession)} {b : β} {k' : KeyNumber} {f : β → Reply}
    (h : op.wp (Prog.Answers (Card.transmit P app)) (fun _ => True)
      (fun r _ w' => r.1 = b ∧ InProfile P k' profile c' r.2 w') (fun _ _ _ => False) () w) :
    (returning f op).wp (Prog.Answers (Card.transmit P app)) (fun _ => True)
      (fun r _ w' => r.1 = f b ∧ InProfile P k' profile c' r.2 w') (fun _ _ _ => False) () w := by
  simp only [returning, Script.wp_bind, Script.wp_pure]
  refine Script.wp_mono h ?_ fun _ _ _ he => he
  rintro r _ w' ⟨rfl, h'⟩
  exact ⟨rfl, h'⟩

/-- An operation without one. -/
theorem wp_finishing {op : Task E EncryptedSession} {k' : KeyNumber}
    (h : op.wp (Prog.Answers (Card.transmit P app)) (fun _ => True)
      (fun session' _ w' => InProfile P k' profile c' session' w') (fun _ _ _ => False) () w) :
    (finishing op).wp (Prog.Answers (Card.transmit P app))
      (fun _ => True) (fun r _ w' => r.1 = .done ∧ InProfile P k' profile c' r.2 w')
      (fun _ _ _ => False) () w := by
  simp only [finishing, Script.wp_bind, Script.wp_pure]
  exact Script.wp_mono h (fun _ _ _ h' => ⟨trivial, h'⟩) fun _ _ _ he => he

/-- `get_file_settings`. -/
theorem wp_settings (happ : app.Documented profile) (file : File)
    (h : InProfile P k profile c session w) :
    (session.getFileSettings P file).wp (Prog.Answers (Card.transmit P app)) (fun _ => True)
      (fun r _ w' => r.1 = c.settings file ∧ InProfile P k profile c r.2 w')
      (fun (_ : Fault (SessionError E)) _ _ => False) () w :=
  h.wp_dispatchValue (V := fun v => v = c.settings file) (R := fun _ _ => False) fun _ _ _ hs =>
    wp_getFileSettings (J := fun _ => True) happ file hs trivial

/-- `read_file_plain`. -/
theorem wp_readFilePlain (hP : P.Lawful) (happ : app.Documented profile)
    (h : InProfile P k profile c session w) {file : File} {offset length : UInt32}
    {buf : List UInt8} (hall : AtProfile.Offered c k .plain file offset.toNat length.toNat)
    (hbuf : length.toNat ≤ buf.length) :
    (session.readFilePlain P file offset length buf).wp (Prog.Answers (Card.transmit P app))
      (fun _ => True)
      (fun r _ w' => r.1 = (length.toNat,
        overlay buf 0 (slice (c.contents file).toList offset.toNat length.toNat)) ∧
        InProfile P k profile c r.2 w')
      (fun (_ : Fault (SessionError E)) _ _ => False) () w := by
  refine h.wp_dispatchValue (V := fun r => r = (length.toNat,
    overlay buf 0 (slice (c.contents file).toList offset.toNat length.toNat)))
    (R := fun _ _ => False) fun S _ s hs => ?_
  rw [Session.readFilePlain, Script.wp_on, wp_borrow]
  exact AtProfile.wp_readCommand (J := fun _ => True) hP happ hs hall hbuf trivial

/-- `write_file_plain`. -/
theorem wp_writeFilePlain (hP : P.Lawful) (happ : app.Documented profile)
    (h : InProfile P k profile c session w) {file : File} {offset : UInt32} {data : List UInt8}
    (hdata : AtProfile.Accepted c k .plain file offset data) :
    (session.writeFilePlain P file offset data).wp (Prog.Answers (Card.transmit P app))
      (fun _ => True)
      (fun session' _ w' =>
        InProfile P k profile (c.written file offset.toNat data) session' w')
      (fun (_ : Fault (SessionError E)) _ _ => False) () w := by
  refine h.wp_dispatch fun S _ s hs => ?_
  simp only [Session.writeFilePlain, Script.wp_bind, Script.wp_on, Script.wp_pure, wp_borrow]
  exact AtProfile.wp_writeCommand (J := fun _ => True) hP happ hs hdata fun _ => trivial

variable {verify : Bytes signatureLen → Bytes 7 → Except OriginalityError Unit} {r : Reply}
  {k' : KeyNumber}

/-- **One operation** does what the machine says. -/
theorem wp_query (hP : P.Lawful) (happ : app.Documented profile)
    (h : InProfile P k profile c session w) (op : SessionOp)
    (heffect : op.effect verify k c = some (r, k', c')) :
    (op.query P verify session).wp (Prog.Answers (Card.transmit P app)) (fun _ => True)
      (fun x _ w' => x.1 = r ∧ InProfile P k' profile c' x.2 w')
      (fun (_ : Fault (SessionError E)) _ _ => False) () w := by
  cases op with
  | getVersion =>
      cases heffect
      exact wp_returning (h.wp_dispatchValue (V := fun v => v = c.version) (R := fun _ _ => False)
        fun _ _ _ hs => AtProfile.wp_consume (AtProfile.wp_getVersion happ hs))
  | getUid =>
      cases heffect
      exact wp_returning (h.wp_getUid (J := fun _ => True) hP happ trivial)
  | getKeyVersion keyNo =>
      cases heffect
      exact wp_returning (h.wp_dispatchValue (V := fun v => v = c.keyVersions keyNo)
        (R := fun _ _ => False) fun _ _ _ hs =>
        AtProfile.wp_consume (AtProfile.wp_getKeyVersion happ hs keyNo))
  | getFileSettings file =>
      cases heffect
      exact wp_returning (wp_settings happ file h)
  | getFileCounters file => cases heffect
  | changeKey keyNo newKey version oldKey =>
      rw [SessionOp.effect] at heffect
      split at heffect
      · rename_i hmaster
        obtain ⟨rfl, hold⟩ := hmaster
        cases heffect
        exact wp_finishing (h.wp_changeKey (J := fun _ => True) hP happ keyNo newKey version hold
          trivial)
      · cases heffect
  | changeFileSettings file u =>
      obtain ⟨c₁, hchanged, heq⟩ := Option.map_eq_some_iff.mp heffect
      cases heq
      obtain ⟨raw, v, hchange, hraw, hdecode, rfl⟩ := changeSettings_eq_some hchanged
      exact wp_finishing (h.wp_changeFileSettings (J := fun _ => True) hP happ hraw hdecode hchange
        trivial)
  | getTtStatus =>
      obtain ⟨d, hreport, heq⟩ := Option.map_eq_some_iff.mp heffect
      cases heq
      exact wp_returning (h.wp_getTtStatus (J := fun _ => True) hP happ hreport trivial)
  | setConfiguration configuration =>
      rw [SessionOp.effect] at heffect
      split at heffect
      · rename_i hmaster
        obtain rfl := hmaster
        obtain ⟨c₁, hall, hkept⟩ := Option.bind_eq_some_iff.mp heffect
        split at hkept
        · cases hkept
          exact wp_finishing (h.wp_setConfiguration (J := fun _ => True) hP happ hall
            fun _ _ _ => trivial)
        · cases hkept
      · cases heffect
  | verifyOriginality uid =>
      rw [SessionOp.effect] at heffect
      split at heffect
      · rename_i hgenuine
        cases heffect
        refine wp_returning (Script.wp_mono (h.wp_verifyOriginality (J := fun _ => True) hP happ
          trivial verify uid) (fun _ _ _ h' => ⟨h'.1.1, h'.2⟩) ?_)
        rintro _ _ _ ⟨e, hno, -⟩
        cases hgenuine.symm.trans hno
      · cases heffect
  | readFilePlain file offset length buf =>
      obtain ⟨reply, hread, heq⟩ := Option.map_eq_some_iff.mp heffect
      cases heq
      obtain ⟨rfl, hall, hbuf⟩ := read_eq_some hread
      exact wp_returning (f := fun x => .bytes x.1 x.2)
        (wp_readFilePlain hP happ h hall hbuf)
  | writeFilePlain file offset data =>
      obtain ⟨c₁, hwrite, heq⟩ := Option.map_eq_some_iff.mp heffect
      cases heq
      obtain ⟨rfl, hdata⟩ := write_eq_some hwrite
      exact wp_finishing (wp_writeFilePlain hP happ h hdata)
  | readFileWithMode file offset length mode buf =>
      obtain ⟨reply, hread, heq⟩ := Option.map_eq_some_iff.mp heffect
      cases heq
      obtain ⟨rfl, hall, hbuf⟩ := read_eq_some hread
      exact wp_returning (f := fun x => .bytes x.1 x.2)
        (h.wp_readFileWithMode (J := fun _ => True) hP happ hall hbuf trivial)
  | writeFileWithMode file offset data mode =>
      obtain ⟨c₁, hwrite, heq⟩ := Option.map_eq_some_iff.mp heffect
      cases heq
      obtain ⟨rfl, hdata⟩ := write_eq_some hwrite
      exact wp_finishing (h.wp_writeFileWithMode (J := fun _ => True) hP happ hdata
        fun _ => trivial)
  | readFile file offset length buf =>
      obtain ⟨reply, hread, heq⟩ := Option.map_eq_some_iff.mp heffect
      cases heq
      obtain ⟨rfl, hall, hbuf⟩ := read_eq_some hread
      exact wp_returning (f := fun x => .bytes x.1 x.2)
        (h.wp_readFile (J := fun _ => True) hP happ hall.readable hall.ne_zero
        hall.within hbuf trivial)
  | writeFile file offset data =>
      obtain ⟨c₁, hwrite, heq⟩ := Option.map_eq_some_iff.mp heffect
      cases heq
      obtain ⟨rfl, hdata⟩ := write_eq_some hwrite
      exact wp_finishing (h.wp_writeFile (J := fun _ => True) hP happ hdata.writable hdata.ne_nil
        hdata.within fun _ => trivial)
  | authenticate keyNo key rndA =>
      rw [SessionOp.effect] at heffect
      split at heffect
      · rename_i hkey
        cases heffect
        exact wp_finishing (h.wp_authenticate hP happ _ hkey rndA)
      · cases heffect

/-- **Operations one after the other.** -/
theorem wp_queries (hP : P.Lawful) (happ : app.Documented profile)
    (h : InProfile P k profile c session w) (ops : List SessionOp) {replies : List Reply}
    (heffects : effects verify k c ops = some (replies, k', c')) :
    (queries P verify ops session).wp (Prog.Answers (Card.transmit P app)) (fun _ => True)
      (fun x _ w' => x.1 = replies ∧ InProfile P k' profile c' x.2 w')
      (fun (_ : Fault (SessionError E)) _ _ => False) () w := by
  induction ops generalizing k c session w replies with
  | nil =>
      cases heffects
      exact Script.wp_pure.mpr ⟨rfl, h⟩
  | cons op ops ih =>
      obtain ⟨⟨reply, k₁, c₁⟩, hfirst, hrest⟩ := Option.bind_eq_some_iff.mp heffects
      obtain ⟨⟨replies', k₂, c₂⟩, hlater, heq⟩ := Option.map_eq_some_iff.mp hrest
      cases heq
      simp only [queries, Script.wp_bind, Script.wp_pure]
      refine Script.wp_mono (wp_query hP happ h op hfirst) ?_ fun _ _ _ he => he
      rintro ⟨_, session₁⟩ _ w₁ ⟨rfl, h₁⟩
      refine Script.wp_mono (ih h₁ hlater) ?_ fun _ _ _ he => he
      rintro ⟨_, session₂⟩ _ w₂ ⟨rfl, h₂⟩
      exact ⟨rfl, h₂⟩

end InProfile

/-! ### A session from its authentication on -/

/-- Authenticate in the mode of the tag: `authenticate_lrp` or `authenticate_aes`. -/
def openSession (P : Primitives) (lrpMode : Bool) (k : KeyNumber) (key : Key)
    (rndA : Bytes 16) : Task E EncryptedSession :=
  if lrpMode then do return .lrp (← Session.new.authenticateLrp P k key rndA)
  else do return .aes (← Session.new.authenticateAes P k key rndA)

theorem wp_openSession (hP : P.Lawful) (happ : app.Documented profile)
    (hprofile : profile w.app = c) (rndA : Bytes 16) :
    (openSession P c.lrpMode k (c.keys k) rndA).wp (Prog.Answers (Card.transmit P app))
      (fun _ => True) (fun session _ w' => InProfile P k profile c session w')
      (fun (_ : Fault (SessionError E)) _ _ => False) () w := by
  rw [openSession]
  cases hmode : c.lrpMode with
  | false =>
      simp only [Bool.false_eq_true, if_false, Script.wp_bind, Script.wp_pure]
      exact wp_openAes (J := fun _ => True) hP happ hprofile hmode rfl rndA trivial
  | true =>
      simp only [if_true, Script.wp_bind, Script.wp_pure]
      exact wp_openLrp (J := fun _ => True) hP happ hprofile hmode rfl rndA trivial

variable {verify : Bytes signatureLen → Bytes 7 → Except OriginalityError Unit}
  {replies : List Reply} {k' : KeyNumber}

/-- **A session refines the machine.** Authenticated with a key of the tag, it returns what the
machine returns and leaves the tag in the profile of the machine, in a session of its key. -/
theorem Card.exists_queried (hP : P.Lawful) (happ : app.Documented profile)
    (hprofile : profile w.app = c) (ops : List SessionOp)
    (heffects : effects verify k c ops = some (replies, k', c')) (rndA : Bytes 16) :
    ∃ session w', Prog.run (Card.transmit P app (E := E))
        ((openSession P c.lrpMode k (c.keys k) rndA >>= queries P verify ops) ()) w =
        ((.ok (replies, session), ()), w') ∧ InProfile P k' profile c' session w' := by
  have hrun : (openSession P c.lrpMode k (c.keys k) rndA >>= queries P verify ops).wp
      (Prog.Answers (Card.transmit P app)) (fun _ => True)
      (fun x _ w' => x.1 = replies ∧ InProfile P k' profile c' x.2 w')
      (fun (_ : Fault (SessionError E)) _ _ => False) () w :=
    Script.wp_bind_of (wp_openSession hP happ hprofile rndA)
      (fun _ _ _ h => InProfile.wp_queries hP happ h ops heffects) fun _ _ _ he => he
  obtain ⟨⟨_, session⟩, _, w', hran, rfl, h⟩ := Script.exists_run hrun
  exact ⟨session, w', hran, h⟩

end Operations

/-- The NDEF file of a tag at delivery may be written and read in any session. -/
theorem effects_delivered (verify : Bytes signatureLen → Bytes 7 → Except OriginalityError Unit)
    (key rndA : Bytes 16) :
    effects verify .key0 StoredProfile.delivered.profile
      [.writeFile .ndef 2 [1, 2, 3], .readFile .ndef 1 4 [9, 9, 9, 9, 9],
        .changeKey .key1 key 1 factoryKey, .authenticate .key1 key rndA, .getKeyVersion .key1] =
      some ([.done, .bytes 4 [0, 1, 2, 3, 9], .done, .done, .keyVersion 1], .key1,
        (StoredProfile.delivered.profile.written .ndef 2 [1, 2, 3]).changedKey .key1 key 1) := by
  have hwrite : StoredProfile.delivered.profile.write .key0
      ((StoredProfile.delivered.profile.settings .ndef).writeMode .key0) .ndef 2 [1, 2, 3] =
      some (StoredProfile.delivered.profile.written .ndef 2 [1, 2, 3]) :=
    if_pos ⟨rfl, by decide, by decide, by decide⟩
  have hbytes : overlay [9, 9, 9, 9, 9] 0 (slice ((StoredProfile.delivered.profile.written .ndef 2
      [1, 2, 3]).contents .ndef).toList 1 4) = [0, 1, 2, 3, 9] := by decide +kernel
  have hread : (StoredProfile.delivered.profile.written .ndef 2 [1, 2, 3]).read .key0
      (((StoredProfile.delivered.profile.written .ndef 2 [1, 2, 3]).settings .ndef).readMode .key0)
      .ndef 1 4 [9, 9, 9, 9, 9] = some (.bytes 4 [0, 1, 2, 3, 9]) := by
    rw [← hbytes]
    exact if_pos ⟨rfl, by decide, by decide, by decide, by decide⟩
  have hfactory : (StoredProfile.delivered.profile.written .ndef 2 [1, 2, 3]).keys .key1 =
      factoryKey := rfl
  have hoffset : (2 : UInt32).toNat = 2 := rfl
  have hstart : (1 : UInt32).toNat = 1 := rfl
  have hlength : (4 : UInt32).toNat = 4 := rfl
  simp only [effects, SessionOp.effect, hoffset, hstart, hlength, hwrite, hread, hfactory,
    NonMasterKeyNumber.toKeyNumber, Profile.changedKey_keys_self,
    Profile.changedKey_keyVersions_self, Option.map_some,
    Option.bind_some, and_self, if_true]

/-- A tag at delivery is written to and read, gets a new key and is asked in a session of it. -/
theorem Card.exists_queried_delivered :
    ∃ session w', Prog.run (Card.transmit .standard TagApp.stored (E := Empty))
        ((openSession .standard StoredProfile.delivered.profile.lrpMode .key0
          (StoredProfile.delivered.profile.keys .key0) (Bytes.zeros 16) >>= queries .standard
          (fun _ _ => .ok ()) [.writeFile .ndef 2 [1, 2, 3], .readFile .ndef 1 4 [9, 9, 9, 9, 9],
            .changeKey .key1 (Bytes.fill 16 [7]) 1 factoryKey,
            .authenticate .key1 (Bytes.fill 16 [7]) (Bytes.zeros 16), .getKeyVersion .key1]) ())
          ⟨.deselected, .delivered⟩ =
        ((.ok ([.done, .bytes 4 [0, 1, 2, 3, 9], .done, .done, .keyVersion 1], session), ()), w') ∧
      InProfile .standard .key1 StoredProfile.profile
        ((StoredProfile.delivered.profile.written .ndef 2 [1, 2, 3]).changedKey .key1
          (Bytes.fill 16 [7]) 1) session w' :=
  Card.exists_queried (c := StoredProfile.delivered.profile) Primitives.standard_lawful
    TagApp.stored_documented rfl _ (effects_delivered _ _ _) _

end Ntag424
