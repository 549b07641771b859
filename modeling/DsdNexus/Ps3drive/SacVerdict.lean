import DsdNexus.Ps3drive.Sac

/-! # The verdict of the key exchange

The calls and the checks of the exchange are gates it has to get past one after the other.
A gate that refuses leaves its mark in the status variable where it is a call; a check
leaves there the zero of the call before it.
-/

namespace DsdNexus.Ps3drive

open Program

/-- The status of a call, or what a check finds. -/
inductive Gate where
  | call (status : Int)
  | check (passed : Bool)

def Gate.refuses : Gate → Bool
  | .call status => status ≠ 0
  | .check passed => !passed

/-- The status variable where the gate refuses. -/
def Gate.leaves : Gate → Int
  | .call status => status
  | .check _ => 0

def firstRefusal (gates : List Gate) : Option Gate := gates.find? Gate.refuses

/-- What is stored for the disc is as it was. -/
structure Kept (before after : Handle) : Prop where
  aesKey : after.aesKey = before.aesKey
  aesIv : after.aesIv = before.aesIv
  sacExchanged : after.sacExchanged = before.sacExchanged

theorem Kept.refl (h : Handle) : Kept h h := ⟨rfl, rfl, rfl⟩

theorem Kept.setError {before after : Handle} (h : Kept before after) (err : Int)
    (text : String) : Kept before (after.setError err text) :=
  ⟨h.aesKey, h.aesIv, h.sacExchanged⟩

/-! ## Programs through gates -/

variable {α β : Type} {h₀ : Handle} {front back : List Gate} {b : List UInt8} {a : α}

/-- All calls so far have succeeded, and the buffer holds `b`. -/
def Underway (h₀ : Handle) (b : List UInt8) (x : Exchange) : Prop :=
  x.ret = 0 ∧ Kept h₀ x.handle ∧ x.ioctlBuffer = b

/-- The exchange was stopped with this in the status variable. -/
def StoppedWith (h₀ : Handle) (ret : Int) (x : Exchange) : Prop :=
  x.ret = ret ∧ Kept h₀ x.handle

/-- The program gets past all of the gates, or stops at the first that refuses. -/
structure Follows (h₀ : Handle) (gates : List Gate) (P : Exchange → Prop) (m : Sac α)
    (Q : α → Exchange → Prop) : Prop where
  passed : firstRefusal gates = none → Triple P m Q fun _ _ => False
  stopped : ∀ g, firstRefusal gates = some g →
    Triple P m (fun _ _ => False) fun _ => StoppedWith h₀ g.leaves

variable {P : Exchange → Prop} {Q : α → Exchange → Prop} {R : β → Exchange → Prop}
  {m : Sac α} {k : α → Sac β}

theorem Follows.of_triple (h : Triple P m Q fun _ _ => False) : Follows h₀ [] P m Q :=
  ⟨fun _ => h, nofun⟩

theorem Follows.bind {S : Exchange → Prop} (hm : Follows h₀ front P m fun v s => v = a ∧ S s)
    (hk : Follows h₀ back S (k a) R) : Follows h₀ (front ++ back) P (m >>= k) R := by
  have hrest : ∀ {E : Unit → Exchange → Prop} {T : β → Exchange → Prop}, Triple S (k a) T E →
      ∀ v, Triple (fun s => v = a ∧ S s) (k v) T E := by
    intro E T htriple v
    apply Triple.of_forall
    rintro s ⟨rfl, hs⟩
    cases hms : k v s with
    | mk r s' =>
      cases r with
      | ok c => exact .inl ⟨c, s', rfl, htriple.ok hs hms⟩
      | error u => exact .inr ⟨u, s', rfl, htriple.error hs hms⟩
  constructor
  · intro hnone
    rw [firstRefusal, List.find?_append, Option.or_eq_none_iff] at hnone
    exact (hm.passed hnone.1).bind (hrest (hk.passed hnone.2))
  · intro g hsome
    rw [firstRefusal, List.find?_append] at hsome
    cases hfirst : front.find? Gate.refuses with
    | some g' =>
      rw [hfirst, Option.some_or, Option.some.injEq] at hsome
      subst hsome
      exact (hm.stopped g' hfirst).bind fun v => ⟨fun hs => hs.elim, fun hs => hs.elim⟩
    | none =>
      rw [hfirst, Option.none_or] at hsome
      exact ((hm.passed hfirst).conseq (fun _ hs => hs) (fun _ _ hs => hs)
        fun _ _ hs => hs.elim).bind (hrest (hk.stopped g hsome))

/-- Behind a part without a result. -/
theorem Follows.next {S : Exchange → Prop} {m : Sac Unit} {n : Sac β}
    (hm : Follows h₀ front P m fun _ => S) (hn : Follows h₀ back S n R) :
    Follows h₀ (front ++ back) P (m >>= fun _ => n) R :=
  Follows.bind (a := ()) ⟨fun h => (hm.passed h).conseq (fun _ hs => hs)
    (fun _ _ hs => ⟨rfl, hs⟩) fun _ _ hs => hs, hm.stopped⟩ hn

theorem Follows.pure (a : α) : Follows h₀ [] P (Pure.pure a : Sac α) fun v s => v = a ∧ P s :=
  .of_triple (.pure fun _ hs => ⟨rfl, hs⟩)

theorem follows_attempt (status err : Int) (text : String) :
    Follows h₀ [.call status] (Underway h₀ b) (attempt status err text)
      fun _ => Underway h₀ b := by
  by_cases hstatus : status = 0
  · refine ⟨fun _ => .of_forall fun s hs => .inl ⟨(), { s with ret := status }, ?_, ?_⟩,
      fun g hg => ?_⟩
    · simp [attempt, bind_apply, Program.when, Program.require, hstatus]
    · exact ⟨hstatus, hs.2⟩
    · simp [firstRefusal, Gate.refuses, hstatus] at hg
  · refine ⟨fun hnone => ?_, fun g hg => .of_forall fun s hs => .inr
      ⟨(), { s with ret := status, handle := s.handle.setError err (text ++ toString status) },
        ?_, ?_⟩⟩
    · simp [firstRefusal, Gate.refuses, hstatus] at hnone
    · simp [attempt, bind_apply, Program.when, Program.require, hstatus, setError]
    · have hcall : g = .call status := by
        simpa [firstRefusal, Gate.refuses, hstatus, eq_comm] using hg
      rw [hcall]
      exact ⟨rfl, hs.2.1.setError _ _⟩

theorem follows_require (p : Prop) [Decidable p] :
    Follows h₀ [.check (decide p)] (Underway h₀ b) (require p () : Sac Unit)
      fun _ => Underway h₀ b := by
  by_cases hp : p
  · refine ⟨fun _ => ?_, fun g hg => ?_⟩
    · rw [require_of hp]
      exact .pure fun _ hs => hs
    · simp [firstRefusal, Gate.refuses, hp] at hg
  · refine ⟨fun hnone => ?_, fun g hg => ?_⟩
    · simp [firstRefusal, Gate.refuses, hp] at hnone
    · have hcheck : g = .check false := by
        simpa [firstRefusal, Gate.refuses, hp, eq_comm] using hg
      rw [require_of_not hp, hcheck]
      exact .fail fun _ hs => ⟨hs.1, hs.2.1⟩

theorem follows_check (p : Prop) [Decidable p] (err : Int) (text : String) :
    Follows h₀ [.check (decide p)] (Underway h₀ b) (check p err text)
      fun _ => Underway h₀ b := by
  have hnote : Triple (Underway h₀ b) (when (¬ p) (setError err text)) (fun _ => Underway h₀ b)
      fun _ _ => False :=
    .when (fun _ => .modify fun _ hs => ⟨hs.1, hs.2.1.setError _ _, hs.2.2⟩) fun _ _ hs => hs
  exact (Follows.of_triple hnote).next (follows_require p)

theorem follows_ioctlBuffer :
    Follows h₀ [] (Underway h₀ b) ioctlBuffer fun v s => v = b ∧ Underway h₀ b s :=
  .of_triple (.of_forall fun s hs => .inl ⟨s.ioctlBuffer, s, rfl, hs.2.2, hs⟩)

theorem follows_reportKey (answer : Answer) (size : Nat) (text : String) :
    Follows h₀ [.call answer.status] (Underway h₀ b) (reportKey answer size text)
      fun _ => Underway h₀ (received b size answer) := by
  have hreceive : Triple (Underway h₀ b)
      (modify fun x => { x with ioctlBuffer := received x.ioctlBuffer size answer } : Sac Unit)
      (fun _ => Underway h₀ (received b size answer)) fun _ _ => False :=
    .modify fun s hs => ⟨hs.1, hs.2.1, by rw [hs.2.2]⟩
  exact (Follows.of_triple hreceive).next (follows_attempt _ _ _)

/-! ## What the exchange works with -/

namespace Env

variable (e : Env)

def buffer0 : List UInt8 := received (List.replicate 256 0) 8 (e.drive.sacReportKey 0 0)

def keyFmt : UInt8 := e.buffer0.getD 7 0

def buffer3 : List UInt8 := received e.buffer0 208 (e.drive.sacReportKey 2 e.keyFmt)

/-- What CMD 3 brought. -/
def response3 : List UInt8 := e.buffer3.drop 4

def decrypted : Answer := e.crypto.rsa1024PublicOp caRootN (slice e.response3 26 128)

def cert : Certificate := certificate e.response3 e.decrypted.bytes

def encrypted : Answer := e.crypto.rsa1024PublicOp e.cert.drivePubkey (paddedSession e.crypto)

def signature : Answer := e.crypto.rsa1024PrivateOp (signInput e.crypto e.cert e.encrypted.bytes)

def buffer5 : List UInt8 := received e.buffer3 180 (e.drive.sacReportKey 3 e.keyFmt)

/-- What CMD 5 brought. -/
def response5 : List UInt8 := e.buffer5.drop 4

def outer : Answer := e.crypto.rsa1024PublicOp e.cert.drivePubkey (e.response5.take 128)

def inner : Answer := e.crypto.rsa1024PrivateOp (innerCiphertext e.response5 e.outer.bytes)

def key : List UInt8 :=
  sessionKey e.crypto (slice e.inner.bytes (separator e.inner.bytes + 1 + 8) 16)

def buffer6 : List UInt8 := received e.buffer5 52 (e.drive.sacReportKey 4 e.keyFmt)

/-- The key blob of CMD 6, deciphered. -/
def blob : Answer := e.crypto.aes128CbcDecrypt e.key sessionIv (slice e.buffer6 4 48)

/-- The gates up to CMD 2. -/
def helloGates : List Gate := [
  .call (e.drive.sacReportKey 0 0).status,
  .call (e.drive.sacSendKey 2 e.keyFmt (challenge e.crypto))]

/-- The gates of CMD 3. -/
def certificateGates : List Gate := [
  .call (e.drive.sacReportKey 2 e.keyFmt).status,
  .check (e.response3.getD 25 0 = 0x95),
  .call e.decrypted.status,
  .check (e.decrypted.bytes.getD 0 0 = 0x6a)]

/-- The gates of CMD 4. -/
def hostGates : List Gate := [
  .call e.encrypted.status,
  .call e.signature.status,
  .call (e.drive.sacSendKey 3 e.keyFmt (sessionMsg e.signature.bytes e.encrypted.bytes))]

/-- The gates of CMD 5. -/
def driveGates : List Gate := [
  .call (e.drive.sacReportKey 3 e.keyFmt).status,
  .call e.outer.status,
  .check (e.outer.bytes.getD 0 0 = 0x6a),
  .check (slice e.outer.bytes 1 16 = e.crypto.hostRandom),
  .call e.inner.status,
  .check (e.inner.bytes.getD 0 0 = 0x00 ∧ e.inner.bytes.getD 1 0 = 0x02),
  .check (separator e.inner.bytes < 128 - 24),
  .check (slice e.inner.bytes (separator e.inner.bytes + 1) 8 = e.cert.certId2)]

/-- The gates of CMD 6. -/
def blobGates : List Gate := [
  .call (e.drive.sacReportKey 4 e.keyFmt).status,
  .call e.blob.status]

/-- All gates in the order of the exchange, the setting up of the crypto library first. -/
def gates : List Gate :=
  .call e.crypto.init :: (e.helloGates ++ e.certificateGates ++ e.hostGates ++ e.driveGates ++
    e.blobGates)

/-- If anything is refused, then first of all by a call that reports its failure. -/
def Noticed : Prop := ∀ g, firstRefusal e.gates = some g → ∃ status, g = .call status

end Env

/-! ## The exchange goes through the gates -/

variable (e : Env)

theorem validateKey1_follows :
    Follows h₀ e.certificateGates (Underway h₀ e.buffer0) (validateKey1 e e.keyFmt)
      fun v s => v = e.cert ∧ Underway h₀ e.buffer3 s :=
  (follows_reportKey _ _ _).next <| follows_ioctlBuffer.bind <| (follows_check _ _ _).next <|
    (follows_attempt _ _ _).next <| (follows_require _).next (.pure _)

theorem generateKey2_follows :
    Follows h₀ e.hostGates (Underway h₀ e.buffer3) (generateKey2 e e.keyFmt e.cert)
      fun _ => Underway h₀ e.buffer3 :=
  (follows_attempt _ _ _).next <| (follows_attempt _ _ _).next (follows_attempt _ _ _)

theorem validateKey2_follows :
    Follows h₀ e.driveGates (Underway h₀ e.buffer3) (validateKey2 e e.keyFmt e.cert)
      fun v s => v = e.key ∧ Underway h₀ e.buffer5 s :=
  (follows_reportKey _ _ _).next <| follows_ioctlBuffer.bind <| (follows_attempt _ _ _).next <|
    (follows_check _ _ _).next <| (follows_check _ _ _).next <| (follows_attempt _ _ _).next <|
    (follows_check _ _ _).next <| (follows_check _ _ _).next <| (follows_check _ _ _).next
      (.pure _)

theorem keyBlob_follows :
    Follows h₀ e.blobGates (Underway h₀ e.buffer5) (keyBlob e e.keyFmt e.key)
      fun v s => v = e.blob.bytes ∧ Underway h₀ e.buffer6 s :=
  (follows_reportKey _ _ _).next <| follows_ioctlBuffer.bind <| (follows_attempt _ _ _).next
    (.pure _)

/-- The handle holds the key of the blob and the IV of the disc. -/
def Stored (x : Exchange) : Prop :=
  x.ret = 0 ∧ x.handle.aesKey = slice e.blob.bytes 0x20 16 ∧ x.handle.aesIv = discIv

theorem exchange_follows :
    Follows h₀ (e.helloGates ++ e.certificateGates ++ e.hostGates ++ e.driveGates ++ e.blobGates)
      (Underway h₀ (List.replicate 256 0)) (exchange e) fun _ => Stored e := by
  have hstore : Follows h₀ [] (Underway h₀ e.buffer6) (storeKey e.blob.bytes)
      fun _ => Stored e :=
    .of_triple (.modify fun _ _ => ⟨rfl, rfl, rfl⟩)
  have hall : Follows h₀ ([.call (e.drive.sacReportKey 0 0).status] ++ ([] ++
      ([.call (e.drive.sacSendKey 2 e.keyFmt (challenge e.crypto))] ++ (e.certificateGates ++
        (e.hostGates ++ (e.driveGates ++ (e.blobGates ++ []))))))) _ (exchange e) _ :=
    (follows_reportKey _ _ _).next <| follows_ioctlBuffer.bind <| (follows_attempt _ _ _).next <|
      (validateKey1_follows e).bind <| (generateKey2_follows e).next <|
      (validateKey2_follows e).bind <| (keyBlob_follows e).bind hstore
  simpa only [Env.helloGates, List.append_assoc, List.append_nil, List.nil_append,
    List.cons_append] using hall

/-! ## The verdict -/

variable {e : Env} {h : Handle}

theorem firstRefusal_gates : firstRefusal e.gates =
    if e.crypto.init ≠ 0 then some (.call e.crypto.init)
    else firstRefusal (e.helloGates ++ e.certificateGates ++ e.hostGates ++ e.driveGates ++
      e.blobGates) := by
  rw [Env.gates, firstRefusal, List.find?_cons]
  by_cases hinit : e.crypto.init = 0 <;> simp [Gate.refuses, hinit, firstRefusal]

theorem underway_start (hinit : e.crypto.init = 0) :
    Underway h (List.replicate 256 0) ⟨h, e.crypto.init, List.replicate 256 0⟩ :=
  ⟨hinit, .refl h, rfl⟩

/-- Where nothing is refused, the exchange succeeds and has stored the key. -/
theorem sacExchangeInternal_passed (hnone : firstRefusal e.gates = none) :
    (sacExchangeInternal e h).1 = ok ∧
      (sacExchangeInternal e h).2.aesKey = slice e.blob.bytes 0x20 16 ∧
      (sacExchangeInternal e h).2.aesIv = discIv := by
  rw [firstRefusal_gates] at hnone
  by_cases hinit : e.crypto.init = 0
  · rw [if_neg (not_not.2 hinit)] at hnone
    have hrun := (exchange_follows e : Follows h _ _ _ _).passed hnone
    cases hend : exchange e ⟨h, e.crypto.init, List.replicate 256 0⟩ with
    | mk r x =>
      cases r with
      | ok u =>
        obtain ⟨hret, hkey, hiv⟩ := hrun.ok (underway_start hinit) hend
        simp only [sacExchangeInternal, hinit, ne_eq, not_true, if_false] at hend ⊢
        rw [hend]
        exact ⟨by rw [hret, if_neg (not_not.2 rfl)], hkey, hiv⟩
      | error u => exact (hrun.error (underway_start hinit) hend).elim
  · rw [if_pos hinit] at hnone
    cases hnone

/-- Where something is, the exchange fails only if the gate leaves a mark. -/
theorem sacExchangeInternal_stopped {g : Gate} (hsome : firstRefusal e.gates = some g) :
    ((sacExchangeInternal e h).1 = ok ↔ g.leaves = 0) ∧ Kept h (sacExchangeInternal e h).2 := by
  rw [firstRefusal_gates] at hsome
  by_cases hinit : e.crypto.init = 0
  · rw [if_neg (not_not.2 hinit)] at hsome
    have hrun := (exchange_follows e : Follows h _ _ _ _).stopped g hsome
    cases hend : exchange e ⟨h, e.crypto.init, List.replicate 256 0⟩ with
    | mk r x =>
      cases r with
      | ok u => exact (hrun.ok (underway_start hinit) hend).elim
      | error u =>
        obtain ⟨hret, hkept⟩ := hrun.error (underway_start hinit) hend
        simp only [sacExchangeInternal, hinit, ne_eq, not_true, if_false] at hend ⊢
        rw [hend]
        refine ⟨?_, hkept⟩
        by_cases hzero : g.leaves = 0 <;> simp [hret, hzero, ok, errSacFailed]
  · rw [if_pos hinit, Option.some.injEq] at hsome
    subst hsome
    simp only [sacExchangeInternal, ne_eq, hinit, not_false_eq_true, if_true]
    exact ⟨by simp [Gate.leaves, hinit, ok, errCryptoFailed], (Kept.refl h).setError _ _⟩

/-! ## The exchange of a handle -/

theorem giveUp_kept {Q : α → Handle → Prop} (err : Int) (text : String) :
    Triple (Kept h) (giveUp err text : OnHandle α) Q fun _ => Kept h :=
  .bind (.modify (Q := fun _ => Kept h) fun _ hs => hs.setError err text)
    fun _ => .fail fun _ hs => hs

/-- What does not touch what is stored keeps it. -/
theorem modify_kept {f : Handle → Handle} (hf : ∀ s, Kept s (f s)) :
    Triple (Kept h) (modify f : OnHandle Unit) (fun _ => Kept h) fun _ => Kept h :=
  .modify fun s hs => ⟨(hf s).aesKey.trans hs.aesKey, (hf s).aesIv.trans hs.aesIv,
    (hf s).sacExchanged.trans hs.sacExchanged⟩

theorem refuse_kept (p : Prop) [Decidable p] (err : Int) (text : String) :
    Triple (Kept h) (when p (giveUp err text)) (fun _ => Kept h) fun _ => Kept h :=
  .when (fun _ => giveUp_kept err text) fun _ _ hs => hs

theorem tolerate_kept {m : OnHandle Unit} (err : Int)
    (hm : Triple (Kept h) m (fun _ => Kept h) fun _ => Kept h) :
    Triple (Kept h) (tolerate err m) (fun _ => Kept h) fun _ => Kept h := by
  apply Triple.of_leaves
  intro s hs
  have hleaves : (tolerate err m s).2 = (m s).2 := by
    rw [tolerate]
    cases m s with
    | mk r s' => cases r <;> rfl
  rw [hleaves]
  exact hm.leaves hs

theorem selectSacdLayer_kept (d : Drive) :
    Triple (Kept h) (selectSacdLayer d) (fun _ => Kept h) fun _ => Kept h := by
  simp only [selectSacdLayer]
  split
  · split
    · exact (refuse_kept _ _ _).bind fun _ => modify_kept fun _ => ⟨rfl, rfl, rfl⟩
    · exact modify_kept fun _ => ⟨rfl, rfl, rfl⟩
  · exact modify_kept fun _ => ⟨rfl, rfl, rfl⟩

theorem inquiryInternal_kept (d : Drive) :
    Triple (Kept h) (inquiryInternal d) (fun _ => Kept h) fun _ => Kept h :=
  (refuse_kept _ _ _).bind fun _ => modify_kept fun _ => ⟨rfl, rfl, rfl⟩

theorem checkSacdFeatureInternal_kept (d : Drive) :
    Triple (Kept h) (checkSacdFeatureInternal d) (fun _ => Kept h) fun _ => Kept h := by
  refine (refuse_kept _ _ _).bind fun _ => ?_
  simp only
  split
  · exact (refuse_kept _ _ _).bind fun _ => (refuse_kept _ _ _).bind fun _ =>
      modify_kept fun _ => ⟨rfl, rfl, rfl⟩
  · exact giveUp_kept _ _

/-- A refused exchange that is noticed leaves what is stored as it was. -/
theorem sacKeyExchange_kept {g : Gate} (hsome : firstRefusal e.gates = some g)
    (hleaves : g.leaves ≠ 0) : Kept h (sacKeyExchange e h).2 := by
  have hexchange : Triple (Kept h) (exchangeKeys e) (fun _ _ => False) fun _ => Kept h := by
    refine .of_forall fun s hs => .inr ?_
    obtain ⟨hverdict, hkept⟩ := sacExchangeInternal_stopped (h := s) hsome
    refine ⟨_, _, by rw [exchangeKeys, if_neg fun hok => hleaves (hverdict.1 hok)], ?_⟩
    exact ⟨hkept.aesKey.trans hs.aesKey, hkept.aesIv.trans hs.aesIv,
      hkept.sacExchanged.trans hs.sacExchanged⟩
  refine Triple.leaves (P := Kept h) (R := Kept h) ?_ (.refl h)
  refine .inspect fun s hs => ?_
  split
  · exact .pure fun _ ht => ht ▸ hs
  · refine Triple.weaken ?_ fun _ ht => ht ▸ hs
    refine (refuse_kept _ _ _).bind fun _ => ?_
    refine (tolerate_kept _ (selectSacdLayer_kept _)).bind fun _ => ?_
    refine (inquiryInternal_kept _).bind fun _ => ?_
    refine .bind (Q := fun _ => Kept h) (modify_kept fun _ => ⟨rfl, rfl, rfl⟩) fun _ => ?_
    refine .inspect fun t ht => Triple.weaken ?_ fun _ hu => hu ▸ ht
    refine (refuse_kept _ _ _).bind fun _ => ?_
    refine (checkSacdFeatureInternal_kept _).bind fun _ => ?_
    exact hexchange.bind fun _ => ⟨fun hf => hf.elim, fun hf => hf.elim⟩

/-! ## What the verdict is worth -/

/-- Everything asked and checked in the exchange went well, and the handle holds the key
of its key blob. -/
structure Derived (e : Env) (h : Handle) : Prop where
  answered : ∀ status, Gate.call status ∈ e.gates → status = 0
  certificateType : e.response3.getD 25 0 = 0x95
  certificateMarker : e.decrypted.bytes.getD 0 0 = 0x6a
  sessionMarker : e.outer.bytes.getD 0 0 = 0x6a
  hostRandomEcho : slice e.outer.bytes 1 16 = e.crypto.hostRandom
  pkcsHeader : e.inner.bytes.getD 0 0 = 0x00 ∧ e.inner.bytes.getD 1 0 = 0x02
  separatorFound : separator e.inner.bytes < 128 - 24
  certificateId : slice e.inner.bytes (separator e.inner.bytes + 1) 8 = e.cert.certId2
  aesKey : h.aesKey = slice e.blob.bytes 0x20 16
  aesIv : h.aesIv = discIv

/-- What the exchange checks. -/
def Env.checks (e : Env) : List Bool := [
  e.response3.getD 25 0 = 0x95,
  e.decrypted.bytes.getD 0 0 = 0x6a,
  e.outer.bytes.getD 0 0 = 0x6a,
  slice e.outer.bytes 1 16 = e.crypto.hostRandom,
  e.inner.bytes.getD 0 0 = 0x00 ∧ e.inner.bytes.getD 1 0 = 0x02,
  separator e.inner.bytes < 128 - 24,
  slice e.inner.bytes (separator e.inner.bytes + 1) 8 = e.cert.certId2]

theorem check_mem_gates (passed : Bool) : Gate.check passed ∈ e.gates ↔ passed ∈ e.checks := by
  simp only [Env.gates, Env.helloGates, Env.certificateGates, Env.hostGates, Env.driveGates,
    Env.blobGates, Env.checks, List.mem_cons, List.mem_append, Gate.check.injEq, reduceCtorEq,
    false_or, or_false, List.not_mem_nil, or_assoc]

theorem derived_iff : Derived e h ↔ firstRefusal e.gates = none ∧
    h.aesKey = slice e.blob.bytes 0x20 16 ∧ h.aesIv = discIv := by
  rw [firstRefusal, List.find?_eq_none]
  constructor
  · intro hd
    refine ⟨fun g hg => ?_, hd.aesKey, hd.aesIv⟩
    cases g with
    | call status => simp [Gate.refuses, hd.answered status hg]
    | check passed =>
      have hpassed : ∀ passed ∈ e.checks, passed = true := by
        simp only [Env.checks, List.forall_mem_cons, decide_eq_true_eq]
        exact ⟨hd.certificateType, hd.certificateMarker, hd.sessionMarker, hd.hostRandomEcho,
          hd.pkcsHeader, hd.separatorFound, hd.certificateId, List.forall_mem_nil _⟩
      simp [Gate.refuses, hpassed passed ((check_mem_gates passed).1 hg)]
  · rintro ⟨hall, hkey, hiv⟩
    have hpassed : ∀ passed ∈ e.checks, passed = true := fun passed hmem => by
      simpa [Gate.refuses] using hall _ ((check_mem_gates passed).2 hmem)
    simp only [Env.checks, List.forall_mem_cons, decide_eq_true_eq] at hpassed
    obtain ⟨htype, hmarker, hsession, hecho, hheader, hseparator, hid, -⟩ := hpassed
    exact ⟨fun status hg => by simpa [Gate.refuses] using hall _ hg, htype, hmarker, hsession,
      hecho, hheader, hseparator, hid, hkey, hiv⟩

/-- Success says that the key was derived, and any other verdict leaves what is stored for
the disc as it was. -/
def Trustworthy (e : Env) (h : Handle) : Prop :=
  ((sacExchangeInternal e h).1 = ok → Derived e (sacExchangeInternal e h).2) ∧
    ((sacExchangeInternal e h).1 ≠ ok → Kept h (sacKeyExchange e h).2)

/-- A drive that answers every command with nothing. -/
def silentDrive : Drive where
  readDiscStructure := ⟨0, []⟩
  startStopUnit _ := 0
  simpleInquiry := ⟨0, []⟩
  getConfig := ⟨0, []⟩
  modeSense := ⟨0, []⟩
  modeSelect _ := 0
  sacReportKey _ _ := ⟨0, []⟩
  sacSendKey _ _ _ := 0

/-- Operations that succeed and leave their input as it is. -/
def plainCrypto : Crypto where
  init := 0
  rsa1024PublicOp _ input := ⟨0, input⟩
  rsa1024PrivateOp input := ⟨0, input⟩
  sha1 _ := List.replicate 20 0
  aes128CbcDecrypt _ _ input := ⟨0, input⟩
  hostRandom := List.replicate 16 1
  hostSessionRandom := List.replicate 16 1
  padding := List.replicate 101 1

def freshHandle : Handle where
  aesKey := List.replicate 16 0
  aesIv := List.replicate 16 0
  authenticated := true
  sacExchanged := false
  productId := []
  hasSacdFeature := false
  driveType := 0
  isHybrid := false
  hybridChecked := false
  lastError := 0
  errorMsg := ""

end DsdNexus.Ps3drive
