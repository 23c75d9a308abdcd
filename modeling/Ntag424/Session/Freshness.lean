import Mathlib.Tactic.Common
import Ntag424.Session.Operations

/-!
# Freshness of the Command Counter

Which values of the command counter a session uses, whatever its transport answers. The uses
under one set of session keys form a sequence of accepted exchanges: the `n`-th of them uses
the counter `c + n` in the command and `c + n + 1` in the response. The counter is a 16-bit
field that wraps, so two exchanges with a use in common are a multiple of `2^16` apart.

## Main results

* `Ledger.exchanges`: a ledger is a sequence of exchanges at consecutive counters.
* `wp_computeCmdMac_note`, `wp_verifyResponse_note`, `wp_encryptCommand_note` and
  `wp_decryptResponse_note`: the noted values are those in the MACs and under the cipher.
* `wp_perform_counted`: the step lemma, one case for each operation.
* `Run.counted`: the run lemma.
-/

namespace Ntag424

open Numerals SecureChannel

/-! ### Exchanges -/

/-- The uses of the counter in one accepted exchange that begins at the counter `c`. -/
inductive Exchange (c : UInt16) : List CounterUse → Prop
  /-- A plain exchange. -/
  | plain : Exchange c [.unprotected]
  /-- A protected exchange, with an encrypted command or response or neither. -/
  | secured {iv riv : List CounterUse} : iv = [] ∨ iv = [.commandIv c] →
      riv = [] ∨ riv = [.responseIv (c + 1)] →
      Exchange c (iv ++ [.commandMac c, .responseMac (c + 1)] ++ riv)
  /-- An encrypted command with an empty answer. -/
  | silent : Exchange c [.commandIv c, .commandMac c, .unprotected]

/-- The uses of the first `n` exchanges under one set of keys, from the counter `c`. -/
inductive Ledger (c : UInt16) : ℕ → List CounterUse → Prop
  | nil : Ledger c 0 []
  | snoc {n : ℕ} {history us : List CounterUse} : Ledger c n history →
      Exchange (c + UInt16.ofNat n) us → Ledger c (n + 1) (history ++ us)

/-- A use of an exchange tells the counter at which the exchange began. -/
theorem Exchange.begin_eq {c d : UInt16} {us vs : List CounterUse} {u : CounterUse}
    (hc : Exchange c us) (hd : Exchange d vs) (hu : u ∈ us) (hv : u ∈ vs) (hne : u ≠ .unprotected) :
    c = d := by
  have hbegin : ∀ {c us}, Exchange c us → u ∈ us →
      u = .commandMac c ∨ u = .commandIv c ∨ u = .responseMac (c + 1) ∨
      u = .responseIv (c + 1) := by
    rintro c us (_ | ⟨rfl | rfl, rfl | rfl⟩ | _) hmem <;>
      simp only [List.nil_append, List.append_nil, List.cons_append, List.mem_cons,
        List.not_mem_nil, or_false] at hmem <;> tauto
  rcases hbegin hc hu with rfl | rfl | rfl | rfl
  · simpa using hbegin hd hv
  · simpa using hbegin hd hv
  · simpa using hbegin hd hv
  · simpa using hbegin hd hv

/-- A ledger is a sequence of exchanges at consecutive counters. -/
theorem Ledger.exchanges {c : UInt16} {n : ℕ} {history : List CounterUse} (h : Ledger c n history) :
    ∃ exchanges : List (List CounterUse), exchanges.length = n ∧ exchanges.flatten = history ∧
      ∀ i us, exchanges[i]? = some us → Exchange (c + UInt16.ofNat i) us := by
  induction h with
  | nil => exact ⟨[], rfl, rfl, nofun⟩
  | @snoc n history us _ hex ih =>
      obtain ⟨exchanges, rfl, rfl, hall⟩ := ih
      refine ⟨exchanges ++ [us], by simp, by simp, fun i vs hi => ?_⟩
      rcases Nat.lt_or_ge i exchanges.length with hlt | hge
      · rw [List.getElem?_append_left hlt] at hi
        exact hall i vs hi
      · rw [List.getElem?_append_right hge, List.getElem?_singleton] at hi
        split at hi
        · rename_i hzero
          obtain rfl : i = exchanges.length := by omega
          obtain rfl := Option.some.inj hi
          exact hex
        · cases hi

/-- Counters that agree after a number of exchanges are a multiple of `2^16` exchanges apart. -/
theorem ctr_eq_iff {c : UInt16} {i j : ℕ} (hij : i ≤ j) :
    c + UInt16.ofNat i = c + UInt16.ofNat j ↔ 2 ^ 16 ∣ j - i := by
  rw [← UInt16.toNat_inj, UInt16.toNat_add, UInt16.toNat_add, UInt16.toNat_ofNat',
    UInt16.toNat_ofNat']
  omega

/-! ### Sessions with a ledger -/

variable {P : Primitives} {E S W : Type}
  {env : (r : List UInt8) → W → Transmit E r → W → Prop} {c : UInt16} {n : ℕ}
  {us : List CounterUse} {s : Authenticated S} {w : W}

/-- The session completed `n` exchanges from the counter `c` and noted `us` in the next one. -/
def Noted (c : UInt16) (n : ℕ) (us : List CounterUse) (s : Authenticated S) : Prop :=
  s.cmdCounter = c + UInt16.ofNat n ∧ ∃ history, Ledger c n history ∧ s.history = history ++ us

/-- The session completed some number of exchanges. -/
def Counted (c : UInt16) (s : Authenticated S) : Prop := ∃ n, Noted c n [] s

/-- The session accepted a response and has not decrypted it. -/
def Accepted (c : UInt16) (s : Authenticated S) : Prop :=
  ∃ n history iv, Ledger c n history ∧
    (iv = [] ∨ iv = [.commandIv (c + UInt16.ofNat n)]) ∧
    s.cmdCounter = c + UInt16.ofNat n + 1 ∧
    s.history = history ++
      (iv ++ [.commandMac (c + UInt16.ofNat n), .responseMac (c + UInt16.ofNat n + 1)])

/-- A session that has just authenticated has counted nothing. -/
theorem Counted.start {authResult : AuthResult S} {keyNumber : KeyNumber} (c : UInt16) :
    Counted c ⟨authResult, keyNumber, c, []⟩ :=
  ⟨0, (UInt16.add_zero c).symm, [], .nil, rfl⟩

/-- One more exchange. -/
theorem Counted.of_exchange {history : List CounterUse} (h : Ledger c n history)
    (hex : Exchange (c + UInt16.ofNat n) us) (hctr : s.cmdCounter = c + UInt16.ofNat n + 1)
    (hs : s.history = history ++ us) : Counted c s := by
  refine ⟨n + 1, ?_, history ++ us, h.snoc hex, by rw [hs, List.append_nil]⟩
  rw [hctr, UInt16.ofNat_add, UInt16.add_assoc]
  rfl

/-- After an accepted exchange the session has counted one more. -/
theorem Accepted.counted (h : Accepted c s) : Counted c s := by
  obtain ⟨n, history, iv, hledger, hiv, hctr, hs⟩ := h
  exact .of_exchange hledger (.secured hiv (.inl rfl)) hctr (by rw [hs, List.append_nil])

/-- Noting a use in the exchange in progress. -/
theorem Noted.note (h : Noted c n us s) (u : CounterUse) : Noted c n (us ++ [u]) (s.note u) := by
  obtain ⟨hctr, history, hledger, hs⟩ := h
  exact ⟨hctr, history, hledger, by rw [Authenticated.note, hs, List.append_assoc]⟩

/-- Any fault: what follows an error is not looked at. -/
def AnyFault {σ : Type} (_ : Fault (SessionError E)) (_ : σ) (_ : W) : Prop := True

section Suite

variable [SessionSuite P S]

section Notes

/-! A primitive notes the value of the counter that it puts into the MAC or hands to the cipher. -/

/-- **The note of a command MAC** has the counter whose two bytes the MAC covers, behind the
instruction code and in front of the transaction identifier. -/
theorem wp_computeCmdMac_note {cmd : UInt8} {header data : List UInt8} :
    (computeCmdMac P cmd header data).wp env (fun _ => True)
      (fun mac s' w' => w' = w ∧ ∃ ctr, ctr = s.cmdCounter ∧ s' = s.note (.commandMac ctr) ∧
        mac = SessionSuite.mac P s.suite
          (cmd :: leBytes 2 ctr.toNat ++ s.ti.toList ++ header ++ data))
      (AnyFault (E := E)) s w := by
  simp only [computeCmdMac, state, SecureChannel.note, Script.wp_bind, Script.wp_get,
    Script.wp_assert, Script.wp_set, Script.wp_pure]
  exact ⟨fun _ => ⟨trivial, _, rfl, rfl, rfl⟩, fun _ => trivial⟩

/-- **The note of a response MAC** has the counter whose two bytes the received MAC covers: the
value that the session holds from there on. -/
theorem wp_verifyResponse_note {rc : UInt8} {body : List UInt8} :
    (verifyResponseMacAndAdvance P rc body).wp env (fun _ => True)
      (fun data s' w' => w' = w ∧ ∃ ctr, ctr = s.cmdCounter + 1 ∧
        s' = (s.note (.responseMac ctr)).advanceCounter ∧
        body = data ++ (SessionSuite.mac P s.suite
          (rc :: leBytes 2 ctr.toNat ++ s.ti.toList ++ data)).toList)
      (AnyFault (E := E)) s w := by
  simp only [verifyResponseMacAndAdvance, state, SecureChannel.note, advance, Script.wp_bind,
    Script.wp_get, Script.wp_assert, Script.wp_set, Script.wp_pure, Script.wp_require]
  refine ⟨fun _ => ⟨fun _ => ⟨fun hmac => ?_, fun _ => trivial⟩, fun _ => trivial⟩,
    fun _ => trivial⟩
  rw [macInput, List.append_nil] at hmac
  refine ⟨trivial, _, rfl, rfl, ?_⟩
  rw [hmac, List.take_append_drop]

/-- **The note of a command IV** has the counter under which the command is encrypted. -/
theorem wp_encryptCommand_note {buf : List UInt8} :
    (encryptCommand P buf).wp env (fun _ => True)
      (fun ct s' w' => w' = w ∧ ∃ ctr suite, ctr = s.cmdCounter ∧
        s' = (s.withSuite suite).note (.commandIv ctr) ∧
        SessionSuite.encrypt P s.suite .command s.ti ctr buf = some (ct, suite))
      (AnyFault (E := E)) s w := by
  simp only [encryptCommand, state, SecureChannel.note, Script.wp_bind, Script.wp_get]
  cases henc : SessionSuite.encrypt P s.suite .command s.ti s.cmdCounter buf with
  | none => exact Script.wp_fail.mpr trivial
  | some r =>
      simp only [Script.wp_bind, Script.wp_get, Script.wp_set, Script.wp_pure]
      exact ⟨trivial, _, r.2, rfl, rfl, henc⟩

/-- **The note of a response IV** has the counter under which the response is decrypted. -/
theorem wp_decryptResponse_note {buf : List UInt8} :
    (decryptResponse P buf).wp env (fun _ => True)
      (fun pt s' w' => w' = w ∧ ∃ ctr suite, ctr = s.cmdCounter ∧
        s' = (s.withSuite suite).note (.responseIv ctr) ∧
        SessionSuite.decrypt P s.suite .response s.ti ctr buf = some (pt, suite))
      (AnyFault (E := E)) s w := by
  simp only [decryptResponse, state, SecureChannel.note, Script.wp_bind, Script.wp_get]
  cases hdec : SessionSuite.decrypt P s.suite .response s.ti s.cmdCounter buf with
  | none => exact Script.wp_fail.mpr trivial
  | some r =>
      simp only [Script.wp_bind, Script.wp_get, Script.wp_set, Script.wp_pure]
      exact ⟨trivial, _, r.2, rfl, rfl, hdec⟩

end Notes

section Primitives

variable {Q : List UInt8 → Authenticated S → W → Prop}

/-- A command MAC uses the counter. -/
theorem wp_computeCmdMac_noted {Q : Bytes 8 → Authenticated S → W → Prop} {cmd : UInt8}
    {header data : List UInt8} (h : Noted c n us s)
    (hQ : ∀ mac s', Noted c n (us ++ [.commandMac (c + UInt16.ofNat n)]) s' → Q mac s' w) :
    (computeCmdMac P cmd header data).wp env (fun _ => True) Q (AnyFault (E := E)) s w := by
  refine Script.wp_mono wp_computeCmdMac_note ?_ fun _ _ _ hf => hf
  rintro mac _ _ ⟨rfl, _, rfl, rfl, -⟩
  refine hQ _ _ ?_
  rw [← h.1]
  exact h.note _

/-- Whatever the transport does, the session is not touched. -/
theorem wp_transmit_any {σ : Type} {Q : Response → σ → W → Prop} {t : σ} {apdu : List UInt8}
    (hQ : ∀ resp w', Q resp t w') :
    (transmit apdu).wp env (fun _ => True) Q (AnyFault (E := E)) t w := by
  simp only [transmit, Script.wp_bind, Script.wp_request]
  refine ⟨trivial, fun answer w' _ => ?_⟩
  cases answer with
  | ok resp => exact Script.wp_pure.mpr (hQ resp w')
  | error e => exact Script.wp_fail.mpr trivial

/-- An exchange with any transport leaves the session alone. -/
theorem wp_transmitExpecting_any {σ : Type} {Q : Response → σ → W → Prop} {t : σ}
    {status : ResponseStatus} {apdu : List UInt8} (hQ : ∀ resp w', Q resp t w') :
    (transmitExpecting status apdu).wp env (fun _ => True) Q (AnyFault (E := E)) t w := by
  simp only [transmitExpecting, Script.wp_bind, Script.wp_require, Script.wp_pure]
  exact wp_transmit_any fun resp w' => ⟨fun _ => hQ resp w', fun _ => trivial⟩

/-- A command with a MAC uses the counter once. -/
theorem wp_transmitMac_noted {Q : Response → Authenticated S → W → Prop} {ins p1 p2 : UInt8}
    {header data : List UInt8} (h : Noted c n us s)
    (hQ : ∀ resp s' w', Noted c n (us ++ [.commandMac (c + UInt16.ofNat n)]) s' → Q resp s' w') :
    (transmitMac P ins p1 p2 header data).wp env (fun _ => True) Q (AnyFault (E := E)) s w := by
  simp only [transmitMac, Script.wp_bind]
  exact wp_computeCmdMac_noted h fun _ s' h' => wp_transmitExpecting_any fun resp w' => hQ _ _ _ h'

/-- Encrypting a command uses the counter. -/
theorem wp_encryptCommand_noted {buf : List UInt8} (h : Noted c n us s)
    (hQ : ∀ ct s', Noted c n (us ++ [.commandIv (c + UInt16.ofNat n)]) s' → Q ct s' w) :
    (encryptCommand P buf).wp env (fun _ => True) Q (AnyFault (E := E)) s w := by
  refine Script.wp_mono wp_encryptCommand_note ?_ fun _ _ _ hf => hf
  rintro ct _ _ ⟨rfl, _, suite, rfl, rfl, -⟩
  refine hQ _ _ ?_
  rw [← h.1]
  exact Noted.note (s := s.withSuite suite) h _

/-- Accepting a response uses the next value of the counter. -/
theorem wp_verifyResponse_noted (iv : List CounterUse) {rc : UInt8} {body : List UInt8}
    (hiv : iv = [] ∨ iv = [.commandIv (c + UInt16.ofNat n)])
    (h : Noted c n (iv ++ [.commandMac (c + UInt16.ofNat n)]) s)
    (hQ : ∀ data s', Accepted c s' → Q data s' w) :
    (verifyResponseMacAndAdvance P rc body).wp env (fun _ => True) Q (AnyFault (E := E)) s w := by
  refine Script.wp_mono wp_verifyResponse_note ?_ fun _ _ _ hf => hf
  rintro data _ _ ⟨rfl, _, rfl, rfl, -⟩
  refine hQ _ _ ?_
  obtain ⟨hctr, history, hledger, hs⟩ := h
  refine ⟨n, history, iv, hledger, hiv, ?_, ?_⟩
  · simp only [Authenticated.advanceCounter, Authenticated.note, hctr]
  · simp only [Authenticated.advanceCounter, Authenticated.note, hctr, hs, List.append_assoc,
      List.singleton_append]

/-- Decrypting an accepted response uses its value of the counter again, in the IV. -/
theorem wp_decryptResponse_accepted {buf : List UInt8} (h : Accepted c s)
    (hQ : ∀ pt s', Counted c s' → Q pt s' w) :
    (decryptResponse P buf).wp env (fun _ => True) Q (AnyFault (E := E)) s w := by
  refine Script.wp_mono wp_decryptResponse_note ?_ fun _ _ _ hf => hf
  rintro pt _ _ ⟨rfl, _, suite, rfl, rfl, -⟩
  refine hQ _ _ ?_
  obtain ⟨n, history, iv, hledger, hiv, hctr, hs⟩ := h
  refine .of_exchange hledger (.secured hiv (.inr rfl)) hctr ?_
  simp only [Authenticated.note, Authenticated.withSuite, hs, hctr, List.append_assoc]

/-- Counting an exchange without a response MAC. -/
theorem wp_advance_counted {Q : Unit → Authenticated S → W → Prop}
    {R : Fault (SessionError E) → Authenticated S → W → Prop} (h : Noted c n us s)
    (hex : Exchange (c + UInt16.ofNat n) (us ++ [.unprotected]))
    (hQ : ∀ s', Counted c s' → Q () s' w) :
    advanceCounter.wp env (fun _ => True) Q R s w := by
  simp only [advanceCounter, advance, SecureChannel.note, state, Script.wp_bind, Script.wp_get,
    Script.wp_set]
  obtain ⟨hctr, history, hledger, hs⟩ := h
  refine hQ _ (.of_exchange hledger hex ?_ ?_)
  · simp only [Authenticated.advanceCounter, Authenticated.note, hctr]
  · simp only [Authenticated.advanceCounter, Authenticated.note, hs, List.append_assoc]

end Primitives

/-! ### Commands -/

section Commands

/-- `send_mac`. -/
theorem wp_sendMac_counted {Q : List UInt8 → Authenticated S → W → Prop} {cmd p1 p2 : UInt8}
    {header data : List UInt8} (h : Counted c s)
    (hQ : ∀ plain s' w', Accepted c s' → Q plain s' w') :
    (sendMac P cmd p1 p2 header data).wp env (fun _ => True) Q (AnyFault (E := E)) s w := by
  obtain ⟨n, h⟩ := h
  simp only [sendMac, Script.wp_bind, Script.wp_require, Script.wp_pure]
  refine ⟨fun _ => wp_transmitMac_noted h fun resp s₁ w₁ h₁ => ?_, fun _ => trivial⟩
  exact wp_verifyResponse_noted [] (.inl rfl) h₁ fun data s₂ h₂ =>
    ⟨fun _ => hQ _ _ _ h₂, fun _ => trivial⟩

/-- Accept and decrypt an answer. -/
theorem wp_decryptFullFixed_counted {p ct : ℕ} {Q : Bytes p → Authenticated S → W → Prop}
    {rc : UInt8} {body : List UInt8} (h : Noted c n [.commandMac (c + UInt16.ofNat n)] s)
    (hQ : ∀ plain s', Counted c s' → Q plain s' w) :
    (decryptFullFixed P ct p rc body).wp env (fun _ => True) Q (AnyFault (E := E)) s w := by
  simp only [decryptFullFixed, Script.wp_bind, Script.wp_require, Script.wp_pure]
  refine wp_verifyResponse_noted [] (.inl rfl) h fun data s₁ h₁ => ⟨fun _ => ?_, fun _ => trivial⟩
  exact wp_decryptResponse_accepted h₁ fun pt s₂ h₂ => ⟨fun _ => hQ _ _ h₂, fun _ => trivial⟩

/-- Commands with an encrypted answer of fixed length. -/
theorem wp_readFullFixed_counted {p ct : ℕ} {Q : Bytes p → Authenticated S → W → Prop}
    {ins : UInt8} {header : List UInt8} (h : Counted c s)
    (hQ : ∀ plain s' w', Counted c s' → Q plain s' w') :
    (readFullFixed P ins header ct p).wp env (fun _ => True) Q (AnyFault (E := E)) s w := by
  obtain ⟨n, h⟩ := h
  simp only [readFullFixed, Script.wp_bind]
  exact wp_transmitMac_noted h fun resp s₁ w₁ h₁ =>
    wp_decryptFullFixed_counted h₁ fun plain s₂ h₂ => hQ _ _ _ h₂

/-- Commands with encrypted data. -/
theorem wp_transmitFull_counted {Q : Response → Authenticated S → W → Prop} {ins : UInt8}
    {header data : List UInt8} (h : Counted c s)
    (hQ : ∀ n resp s' w', Noted c n
      [.commandIv (c + UInt16.ofNat n), .commandMac (c + UInt16.ofNat n)] s' → Q resp s' w') :
    (transmitFull P ins header data).wp env (fun _ => True) Q (AnyFault (E := E)) s w := by
  obtain ⟨n, h⟩ := h
  simp only [transmitFull, Script.wp_bind]
  exact wp_encryptCommand_noted h fun ct s₁ h₁ =>
    wp_transmitMac_noted h₁ fun resp s₂ w₂ h₂ => hQ n resp s₂ w₂ h₂

/-- The end of a command with encrypted data and a response MAC. -/
theorem wp_verifyFull_counted {Q : List UInt8 → Authenticated S → W → Prop} {rc : UInt8}
    {body : List UInt8}
    (h : Noted c n [.commandIv (c + UInt16.ofNat n), .commandMac (c + UInt16.ofNat n)] s)
    (hQ : ∀ data s', Counted c s' → Q data s' w) :
    (verifyResponseMacAndAdvance P rc body).wp env (fun _ => True) Q (AnyFault (E := E)) s w :=
  wp_verifyResponse_noted [.commandIv (c + UInt16.ofNat n)] (.inr rfl) h
    fun data s' h' => hQ data s' h'.counted

/-- Every command keeps a ledger of the counter. -/
def KeepsLedger {β : Type} (env : (r : List UInt8) → W → Transmit E r → W → Prop) (c : UInt16)
    (cmd : Cmd E (Authenticated S) β) : Prop :=
  ∀ s w, Counted c s → cmd.wp env (fun _ => True) (fun _ s' _ => Counted c s') AnyFault s w

/-- `get_version_mac`: the frames of the chain are one exchange. -/
theorem keepsLedger_getVersionMac : KeepsLedger env c (getVersionMac P (E := E) (S := S)) := by
  rintro s w ⟨n, h⟩
  simp only [getVersionMac, driveChain, requestIntermediatePart, expectBytes, Script.wp_bind,
    Script.wp_require, Script.wp_pure]
  refine wp_computeCmdMac_noted h fun mac s₁ h₁ => ?_
  refine wp_transmitExpecting_any fun r1 w₁ => ?_
  cases Bytes.ofList? 7 r1.data with
  | none => exact Script.wp_fail.mpr trivial
  | some part1 =>
      refine Script.wp_pure.mpr (wp_transmitExpecting_any fun r2 w₂ => ?_)
      cases Bytes.ofList? 7 r2.data with
      | none => exact Script.wp_fail.mpr trivial
      | some part2 =>
          refine Script.wp_pure.mpr (wp_transmitExpecting_any fun r3 w₃ => ?_)
          exact ⟨fun _ => wp_verifyResponse_noted [] (.inl rfl) h₁ fun _ s' h' => h'.counted,
            fun _ => trivial⟩

/-- The key version comes under a MAC, in one exchange. -/
theorem keepsLedger_getKeyVersion (keyNo : KeyNumber) :
    KeepsLedger env c (getKeyVersion P keyNo (E := E) (S := S)) := by
  intro s w h
  simp only [getKeyVersion, Script.wp_bind]
  refine wp_sendMac_counted h fun plain s' w' h' => ?_
  split
  · exact Script.wp_pure.mpr h'.counted
  · exact Script.wp_fail.mpr trivial

/-- File settings come under a MAC, in one exchange. -/
theorem keepsLedger_getFileSettingsMac (fileNo : UInt8) :
    KeepsLedger env c (getFileSettingsMac P fileNo (E := E) (S := S)) := by
  intro s w h
  simp only [getFileSettingsMac, Script.wp_bind]
  refine wp_sendMac_counted h fun plain s' w' h' => ?_
  cases FileSettingsView.decode plain with
  | ok view => exact Script.wp_pure.mpr h'.counted
  | error e => exact Script.wp_fail.mpr trivial

/-- File counters may be encrypted as well, under the counter of the response MAC. -/
theorem keepsLedger_getFileCounters (fileNo : UInt8) :
    KeepsLedger env c (getFileCounters P fileNo (E := E) (S := S)) := by
  intro s w h
  simp only [getFileCounters, Script.wp_bind]
  refine wp_sendMac_counted h fun resp s' w' h' => ?_
  split
  · exact Script.wp_pure.mpr h'.counted
  · split
    · simp only [Script.wp_bind, Script.wp_require, Script.wp_pure]
      exact wp_decryptResponse_accepted h' fun pt s'' h'' => ⟨fun _ => h'', fun _ => trivial⟩
    · exact Script.wp_fail.mpr trivial

/-- An encrypted answer of a fixed length uses the counter of its response MAC. -/
theorem keepsLedger_readFullFixed (ins : UInt8) (header : List UInt8) (ct p : ℕ) :
    KeepsLedger env c (readFullFixed P ins header ct p (E := E) (S := S)) :=
  fun _ _ h => wp_readFullFixed_counted h fun _ _ _ h' => h'

/-- The tamper status is an encrypted answer. -/
theorem keepsLedger_getTtStatus : KeepsLedger env c (getTtStatus P (E := E) (S := S)) := by
  intro s w h
  simp only [getTtStatus, Script.wp_bind, Script.wp_pure]
  exact wp_readFullFixed_counted h fun _ _ _ h' => h'

/-- The signature is an encrypted answer with a status of its own. -/
theorem keepsLedger_readSigMac : KeepsLedger env c (readSigMac P (E := E) (S := S)) := by
  rintro s w ⟨n, h⟩
  simp only [readSigMac, Script.wp_bind, Script.wp_require]
  refine wp_computeCmdMac_noted h fun mac s₁ h₁ => wp_transmit_any fun resp w' => ?_
  exact ⟨fun _ => wp_decryptFullFixed_counted h₁ fun _ _ h' => h', fun _ => trivial⟩

/-- The settings are encrypted under the counter of the command MAC. -/
theorem keepsLedger_changeFileSettings (fileNo : UInt8) (settings : FileSettingsUpdate) :
    KeepsLedger env c (changeFileSettings P fileNo settings (E := E) (S := S)) := by
  intro s w h
  simp only [changeFileSettings, Script.wp_bind]
  cases settings.encode maxChangeFileSettingsLen with
  | error e => exact Script.wp_fail.mpr trivial
  | ok raw =>
      simp only [liftSettings, Script.wp_pure]
      exact wp_transmitFull_counted h fun n resp s₁ w₁ h₁ => wp_verifyFull_counted h₁
        fun _ _ h' => h'

/-- `set_configuration`: one exchange for each option. -/
theorem keepsLedger_setOptions (options : List (UInt8 × List UInt8)) :
    KeepsLedger env c (setOptions P options (E := E) (S := S)) := by
  induction options with
  | nil => exact fun _ _ h => Script.wp_pure.mpr h
  | cons o options ih =>
      intro s w h
      simp only [setOptions, setConfigurationOne, Script.wp_bind]
      refine wp_transmitFull_counted h fun n resp s₁ w₁ h₁ => ?_
      split
      · exact wp_advance_counted h₁ .silent fun s' h' => ih s' w₁ h'
      · simp only [Script.wp_bind, Script.wp_pure]
        exact wp_verifyFull_counted h₁ fun _ s' h' => ih s' w₁ h'

/-- The key is encrypted under the counter of the command MAC. -/
theorem keepsLedger_changeKey (keyNo : NonMasterKeyNumber) (newKey : Key) (newKeyVersion : UInt8)
    (oldKey : Key) :
    KeepsLedger env c (changeKey P keyNo newKey newKeyVersion oldKey (E := E) (S := S)) := by
  rintro s w ⟨n, h⟩
  simp only [changeKey, transmitKey, if_true, Script.wp_bind, Script.wp_pure]
  refine wp_encryptCommand_noted h fun ct s₁ h₁ => wp_transmitMac_noted h₁ fun resp s₂ w₂ h₂ => ?_
  exact wp_verifyFull_counted h₂ fun _ _ h' => h'

end Commands

/-! ### Files -/

/-- A fault that leaves the counter of the session in order. -/
def FaultCounted (c : UInt16) (_ : Fault (SessionError E)) (s : Authenticated S) (_ : W) : Prop :=
  Counted c s

section Files

/-- One plain request: the counter advances behind it. -/
theorem wp_readDataPlain_counted {Q : ℕ × List UInt8 → Authenticated S → W → Prop}
    {fileNo : UInt8} {offset length : UInt32} {buf : List UInt8} (h : Counted c s)
    (hQ : ∀ r w', Q r s w') :
    (readDataPlain fileNo offset length buf).wp env (fun _ => True) Q
      (FaultCounted (E := E) c) s w := by
  simp only [readDataPlain, validateRequest, validateTarget, transmitExpecting, transmit,
    Script.wp_bind, Script.wp_require, Script.wp_pure, Script.wp_request]
  refine ⟨fun _ => ⟨fun _ => ⟨fun _ => ⟨fun _ => ⟨fun _ => ⟨trivial, fun answer w' _ => ?_⟩,
    fun _ => h⟩, fun _ => h⟩, fun _ => h⟩, fun _ => h⟩, fun _ => h⟩
  cases answer with
  | ok resp => exact Script.wp_pure.mpr ⟨fun _ => hQ _ _, fun _ => h⟩
  | error e => exact Script.wp_fail.mpr h

/-- A plain exchange is counted. -/
theorem Counted.advance (h : Counted c s) : Counted c (s.note .unprotected).advanceCounter := by
  obtain ⟨n, hctr, history, hledger, hs⟩ := h
  refine .of_exchange hledger .plain ?_ ?_
  · simp only [Authenticated.advanceCounter, Authenticated.note, hctr]
  · simp only [Authenticated.advanceCounter, Authenticated.note, hs, List.append_nil]

/-- A plain read counts its chunks without a MAC, by the rule of the loop. -/
theorem wp_readFilePlainChunked_counted (fileNo : UInt8) (offset length : UInt32)
    (buf : List UInt8) (h : Counted c s) :
    (readFilePlainChunked fileNo offset length buf).wp env (fun _ => True)
      (fun _ s' _ => Counted c s') (FaultCounted (E := E) c) s w := by
  rw [readFilePlainChunked]
  split
  · simp only [Script.wp_bind, Script.wp_pure, advanceCounter, SecureChannel.note,
      SecureChannel.advance, state, Script.wp_get, Script.wp_set]
    exact wp_readDataPlain_counted h fun _ _ => h.advance
  · exact wp_readFilePlainLoop_of (J := fun s' _ => Counted c s')
      (fun _ _ _ _ _ h => wp_readDataPlain_counted h fun _ _ => h.advance)
      (fun _ _ h => h) _ _ _ _ h

/-- A plain write counts its chunks without a MAC, by the rule of the loop. -/
theorem wp_writeFilePlainChunked_counted (fileNo : UInt8) (offset : UInt32) (data : List UInt8)
    (h : Counted c s) :
    (writeFilePlainChunked fileNo offset data).wp env (fun _ => True)
      (fun _ s' _ => Counted c s') (FaultCounted (E := E) c) s w := by
  simp only [writeFilePlainChunked, Script.wp_bind, Script.wp_require]
  refine ⟨fun _ => wp_writeLoop_of (J := fun s' _ => Counted c s') ?_ offset h, fun _ => h⟩
  intro offset part s w _ _ h
  simp only [writeFilePlainOneApdu, writeDataPlain, validateHeader, validateTarget,
    validateBodyLen, transmitExpecting, transmit, advanceCounter, SecureChannel.note,
    SecureChannel.advance, state, Script.wp_bind, Script.wp_require, Script.wp_pure,
    Script.wp_request, Script.wp_get, Script.wp_set]
  refine ⟨fun _ => ⟨fun _ => ⟨fun _ => ⟨fun _ => ⟨fun _ => ⟨trivial, fun answer w' _ => ?_⟩,
    fun _ => h⟩, fun _ => h⟩, fun _ => h⟩, fun _ => h⟩, fun _ => h⟩
  cases answer with
  | ok resp => exact Script.wp_pure.mpr ⟨fun _ => h.advance, fun _ => h⟩
  | error e => exact Script.wp_fail.mpr h

/-- A read in any mode keeps the ledger. -/
theorem keepsLedger_readCommand (file : File) (offset length : UInt32) (mode : CommMode)
    (buf : List UInt8) :
    KeepsLedger env c (Session.readCommand P file offset length mode buf (E := E) (S := S)) := by
  intro s w h
  cases mode with
  | plain =>
      exact Script.wp_mono (wp_readFilePlainChunked_counted file.fileNo offset length buf h)
        (fun _ _ _ h' => h') fun _ _ _ _ => trivial
  | mac =>
      simp only [Session.readCommand, readDataMac, validateRequest, validateTarget,
        Script.wp_bind, Script.wp_require]
      refine ⟨fun _ => ⟨fun _ => ⟨fun _ => ⟨fun _ => ⟨fun _ => ?_, fun _ => trivial⟩,
        fun _ => trivial⟩, fun _ => trivial⟩, fun _ => trivial⟩, fun _ => trivial⟩
      refine wp_readDataMacLoop_of P (J := fun s' _ => Counted c s') ?_ (fun _ _ _ => trivial)
        _ _ _ h
      rintro offset length buf s w ⟨n, h⟩
      simp only [readDataMacOneApdu, wp_buildReadHeader, Script.wp_bind, Script.wp_require,
        Script.wp_assert, Script.wp_pure]
      refine ⟨fun _ => ?_, fun _ => trivial⟩
      exact wp_transmitMac_noted h fun resp s₁ w₁ h₁ => wp_verifyResponse_noted [] (.inl rfl) h₁
        fun data s₂ h₂ => ⟨fun _ => ⟨fun _ => h₂.counted, fun _ => trivial⟩, fun _ => trivial⟩
  | full =>
      simp only [Session.readCommand, readDataFull, validateRequest, validateTarget,
        Script.wp_bind, Script.wp_require]
      refine ⟨fun _ => ⟨fun _ => ⟨fun _ => ⟨fun _ => ⟨fun _ => ?_, fun _ => trivial⟩,
        fun _ => trivial⟩, fun _ => trivial⟩, fun _ => trivial⟩, fun _ => trivial⟩
      refine wp_readDataFullLoop_of P (J := fun s' _ => Counted c s') ?_ (fun _ _ _ => trivial)
        _ _ _ h
      rintro offset length buf s w ⟨n, h⟩
      simp only [readDataFullOneApdu, wp_buildReadHeader, Script.wp_bind, Script.wp_require,
        Script.wp_assert]
      refine ⟨fun _ => ?_, fun _ => trivial⟩
      refine wp_transmitMac_noted h fun resp s₁ w₁ h₁ => wp_verifyResponse_noted [] (.inl rfl) h₁
        fun data s₂ h₂ => ⟨fun _ => ⟨fun _ => ?_, fun _ => trivial⟩, fun _ => trivial⟩
      refine wp_decryptResponse_accepted h₂ fun pt s₃ h₃ => ?_
      split
      · exact Script.wp_fail.mpr trivial
      · simp only [Script.wp_bind, Script.wp_require, Script.wp_pure]
        exact ⟨fun _ => ⟨fun _ => h₃, fun _ => trivial⟩, fun _ => trivial⟩

/-- A write in any mode keeps the ledger. -/
theorem keepsLedger_writeCommand (file : File) (offset : UInt32) (data : List UInt8)
    (mode : CommMode) :
    KeepsLedger env c (Session.writeCommand P file offset data mode (E := E) (S := S)) := by
  intro s w h
  cases mode with
  | plain =>
      exact Script.wp_mono (wp_writeFilePlainChunked_counted file.fileNo offset data h)
        (fun _ _ _ h' => h') fun _ _ _ _ => trivial
  | mac =>
      simp only [Session.writeCommand, writeDataMac, validateHeader, validateTarget,
        Script.wp_bind, Script.wp_require]
      refine ⟨fun _ => ⟨fun _ => ⟨fun _ => ⟨fun _ => ?_, fun _ => trivial⟩, fun _ => trivial⟩,
        fun _ => trivial⟩, fun _ => trivial⟩
      refine wp_writeLoop_of (J := fun s' _ => Counted c s') ?_ offset h
      intro offset part s w _ _ h
      simp only [writeDataMacOneApdu, wp_buildWriteHeader, Script.wp_bind, Script.wp_require]
      refine ⟨fun _ => ?_, fun _ => trivial⟩
      exact wp_sendMac_counted h fun _ _ _ h' => ⟨fun _ => h'.counted, fun _ => trivial⟩
  | full =>
      simp only [Session.writeCommand, writeDataFull, validateHeader, validateTarget,
        Script.wp_bind, Script.wp_require]
      refine ⟨fun _ => ⟨fun _ => ⟨fun _ => ⟨fun _ => ?_, fun _ => trivial⟩, fun _ => trivial⟩,
        fun _ => trivial⟩, fun _ => trivial⟩
      refine wp_writeLoop_of (J := fun s' _ => Counted c s') ?_ offset h
      intro offset part s w _ _ h
      simp only [writeDataFullOneApdu, wp_buildWriteHeader, validateBodyLen, Script.wp_bind,
        Script.wp_require, Script.wp_pure]
      refine ⟨fun _ => ⟨fun _ => ?_, fun _ => trivial⟩, fun _ => trivial⟩
      exact wp_transmitFull_counted h fun n resp s₁ w₁ h₁ => wp_verifyFull_counted h₁
        fun _ _ h' => h'

end Files

end Suite

/-! ### Runs -/

section Runs

variable [HandshakeSuite P S]

/-- The session that is left, if any, has a ledger since its keys were agreed on. -/
def LedgerLeft (left : Option (Session (Authenticated S))) : Prop :=
  ∀ session ∈ left, ∃ c, Counted c session.state

/-- A command on a consumed session keeps the ledger. -/
theorem wp_consuming_counted {op : Task E (Session (Authenticated S))}
    (h : op.wp env (fun _ => True) (fun session _ _ => ∃ c, Counted c session.state)
      AnyFault () w) :
    (SessionOp.consuming op).wp env (fun _ => True) (fun r _ _ => LedgerLeft r.2)
      AnyFault () w := by
  simp only [SessionOp.consuming, Script.wp_bind, Script.wp_attempt]
  refine Script.wp_mono h (fun session _ w' h' => ?_) fun e _ w' _ => ?_
  · exact Script.wp_pure.mpr fun _ heq => Option.some.inj heq ▸ h'
  · cases e with
    | error e => exact Script.wp_pure.mpr (by rintro _ ⟨⟩)
    | panicked => trivial

/-- A command on a borrowed session keeps the ledger, also when it fails. -/
theorem wp_borrowing_counted {β : Type} {cmd : Cmd E (Authenticated S) β}
    {session : Session (Authenticated S)}
    (h : cmd.wp env (fun _ => True) (fun _ s' _ => Counted c s') (FaultCounted c) session.state w) :
    (SessionOp.borrowing (Session.borrow cmd) session).wp env (fun _ => True)
      (fun r _ _ => LedgerLeft r.2) AnyFault () w := by
  simp only [SessionOp.borrowing, Session.borrow, Script.wp_bind, Script.wp_on, Script.wp_attempt,
    Script.wp_zoom, Script.wp_pure]
  refine Script.wp_mono h (fun _ s' w' h' => ?_) fun e s' w' h' => ?_
  · exact fun _ heq => Option.some.inj heq ▸ ⟨c, h'⟩
  · cases e with
    | error e => exact fun _ heq => Option.some.inj heq ▸ ⟨c, h'⟩
    | panicked => trivial

variable {session : Session (Authenticated S)}

/-- An operation that consumes the session leaves its ledger kept, or no session. -/
theorem KeepsLedger.consuming_dropValue {β : Type} {cmd : Cmd E (Authenticated S) β}
    (hcmd : KeepsLedger env c cmd) (h : Counted c session.state) :
    (SessionOp.consuming (SessionOp.dropValue (session.consume cmd))).wp env (fun _ => True)
      (fun r _ _ => LedgerLeft r.2) AnyFault () w := by
  refine wp_consuming_counted ?_
  rw [wp_dropValue, wp_consume]
  exact Script.wp_mono (hcmd _ _ h) (fun _ _ _ h' => ⟨c, h'⟩) fun _ _ _ _ => trivial

/-- A command without a value that consumes the session leaves its ledger kept. -/
theorem KeepsLedger.consumeUnit {cmd : Cmd E (Authenticated S) Unit}
    (hcmd : KeepsLedger env c cmd) (h : Counted c session.state) :
    (session.consumeUnit cmd).wp env (fun _ => True)
      (fun session _ _ => ∃ c, Counted c session.state) AnyFault () w := by
  rw [wp_consumeUnit]
  exact Script.wp_mono (hcmd _ _ h) (fun _ _ _ h' => ⟨c, h'⟩) fun _ _ _ _ => trivial

/-- **Every operation keeps the ledger**, against any transport. A re-authentication begins a
new one at the current counter. -/
theorem wp_perform_counted (verify : Bytes signatureLen → Bytes 7 → Except OriginalityError Unit)
    (op : SessionOp) (h : Counted c session.state) :
    (op.perform P verify session).wp env (fun _ => True) (fun r _ _ => LedgerLeft r.2)
      (AnyFault (E := E)) () w := by
  cases op with
  | getVersion => exact (keepsLedger_getVersionMac (P := P)).consuming_dropValue h
  | changeKey keyNo newKey newKeyVersion oldKey =>
      exact wp_consuming_counted
        ((keepsLedger_changeKey (P := P) keyNo newKey newKeyVersion oldKey).consumeUnit h)
  | getUid =>
      exact KeepsLedger.consuming_dropValue (keepsLedger_readFullFixed (P := P) 0x51 [] 16 7) h
  | getKeyVersion keyNo => exact (keepsLedger_getKeyVersion (P := P) keyNo).consuming_dropValue h
  | getFileSettings file =>
      exact (keepsLedger_getFileSettingsMac (P := P) file.fileNo).consuming_dropValue h
  | changeFileSettings file settings =>
      exact wp_consuming_counted
        ((keepsLedger_changeFileSettings (P := P) file.fileNo settings).consumeUnit h)
  | getFileCounters file =>
      exact (keepsLedger_getFileCounters (P := P) file.fileNo).consuming_dropValue h
  | getTtStatus => exact (keepsLedger_getTtStatus (P := P)).consuming_dropValue h
  | setConfiguration configuration =>
      exact wp_consuming_counted
        ((keepsLedger_setOptions (P := P) configuration.build).consumeUnit h)
  | verifyOriginality uid =>
      rw [SessionOp.perform]
      refine wp_consuming_counted ?_
      simp only [Session.verifyOriginality, Script.wp_bind, wp_consume]
      refine Script.wp_mono (keepsLedger_readSigMac (P := P) _ _ h) ?_ fun _ _ _ _ => trivial
      intro sig s' w' h'
      cases verify sig uid with
      | ok u =>
          simp only [Script.wp_pure]
          exact ⟨c, h'⟩
      | error e => exact Script.wp_fail.mpr trivial
  | readFilePlain file offset length buf =>
      exact wp_borrowing_counted (wp_readFilePlainChunked_counted file.fileNo offset length buf h)
  | writeFilePlain file offset data =>
      exact wp_borrowing_counted (wp_writeFilePlainChunked_counted file.fileNo offset data h)
  | readFileWithMode file offset length mode buf =>
      exact (keepsLedger_readCommand (P := P) file offset length mode buf).consuming_dropValue h
  | writeFileWithMode file offset data mode =>
      exact wp_consuming_counted
        ((keepsLedger_writeCommand (P := P) file offset data mode).consumeUnit h)
  | readFile file offset length buf =>
      rw [SessionOp.perform]
      refine wp_consuming_counted ?_
      simp only [wp_dropValue, Session.readFile, Session.getFileSettings, Session.readFileWithMode,
        Script.wp_bind, wp_consume]
      refine Script.wp_mono (keepsLedger_getFileSettingsMac (P := P) _ _ _ h) ?_
        fun _ _ _ _ => trivial
      intro view s' w' h'
      exact Script.wp_mono (keepsLedger_readCommand (P := P) file offset length _ buf _ _ h')
        (fun _ _ _ h'' => ⟨c, h''⟩) fun _ _ _ _ => trivial
  | writeFile file offset data =>
      rw [SessionOp.perform]
      refine wp_consuming_counted ?_
      simp only [Session.writeFile, Session.getFileSettings, Session.writeFileWithMode,
        Script.wp_bind, wp_consume]
      refine Script.wp_mono (keepsLedger_getFileSettingsMac (P := P) _ _ _ h) ?_
        fun _ _ _ _ => trivial
      intro view s' w' h'
      exact (keepsLedger_writeCommand (P := P) file offset data _).consumeUnit h'
  | authenticate keyNo key rndA =>
      rw [SessionOp.perform]
      refine wp_consuming_counted ?_
      simp only [Session.authenticate, Script.wp_bind, Script.wp_pure]
      refine Script.wp_mono (Q := fun _ _ _ => True) ?_ (fun suite _ _ _ => ?_) fun _ _ _ he => he
      · exact Script.wp_any _
      · exact ⟨session.state.cmdCounter, .start _⟩

/-- **Every run keeps the ledger** of the keys in use. -/
theorem Run.counted {verify : Bytes signatureLen → Bytes 7 → Except OriginalityError Unit}
    {allowed : Session (Authenticated S) → W → SessionOp → Prop}
    {session₀ : Session (Authenticated S)}
    {w₀ : W} {log : Log E} {left : Option (Session (Authenticated S))}
    (hrun : Run P verify env allowed session₀ w₀ log left w)
    (hfresh : session₀.state.history = []) : LedgerLeft left := by
  refine hrun.invariant (J := fun _ left _ => LedgerLeft left) ?_ ?_
  · intro session hs
    obtain rfl := Option.some.inj hs
    refine ⟨session₀.state.cmdCounter, 0, (UInt16.add_zero _).symm, [], .nil, ?_⟩
    rw [hfresh, List.append_nil]
  · intro log session w op hleft _
    obtain ⟨c, hc⟩ := hleft session rfl
    exact Script.wp_mono (wp_perform_counted verify op hc) (fun _ _ _ h => h) fun _ _ _ _ => trivial

end Runs

/-! ### The history of one request -/

/-- `get_key_version` uses the counter in its MAC and, when it succeeds, the next value in the
MAC of the response. -/
theorem wp_getKeyVersion_history [SessionSuite P S] (keyNo : KeyNumber) :
    (getKeyVersion P keyNo).wp env (fun _ => True)
      (fun _ s' _ => s'.cmdCounter = s.cmdCounter + 1 ∧
        s'.history = s.history ++ [.commandMac s.cmdCounter, .responseMac (s.cmdCounter + 1)])
      (AnyFault (E := E)) s w := by
  simp only [getKeyVersion, sendMac, transmitMac, computeCmdMac, verifyResponseMacAndAdvance, state,
    SecureChannel.note, advance, Script.wp_bind, Script.wp_get, Script.wp_assert, Script.wp_set,
    Script.wp_pure, Script.wp_require]
  refine ⟨fun _ => ⟨fun _ => wp_transmitExpecting_any fun resp w' => ?_, fun _ => trivial⟩,
    fun _ => trivial⟩
  refine ⟨fun _ => ⟨fun _ => ⟨fun _ => ⟨fun _ => ?_, fun _ => trivial⟩, fun _ => trivial⟩,
    fun _ => trivial⟩, fun _ => trivial⟩
  split
  · refine Script.wp_pure.mpr ⟨rfl, ?_⟩
    simp only [Authenticated.advanceCounter, Authenticated.note, List.append_assoc,
      List.singleton_append]
  · exact Script.wp_fail.mpr trivial

end Ntag424
