/-
Retry delays in machine words (`RetryWorkerPolicy` of `dbproxy-server`).

The publisher computes with numbers; here the same functions are written with the words of
the code, where every operation that may overflow, underflow or divide by zero has no
result if it does.

* `RetryPolicyWords.retryDelayMs_eq`, `RetryPolicyWords.outboxRetryDelayMs_eq` — the words
  have results for every policy, and these are the numbers;
* `le_retryDelayMs`, `retryDelayMs_mono`, `half_le_outboxRetryDelayMs` — the bounds;
* `retryDelays_safe` — all of it, for the policies that `validate` accepts.
-/
import DbProxy.CheckedWord
import DbProxy.OutboxPublisher

namespace DbProxy

/-! ### The code in words -/

/-- `RetryWorkerPolicy` with the widths of its fields. -/
structure RetryPolicyWords where
  leaseMs : BitVec 64
  baseRetryDelayMs : BitVec 64
  maxRetryDelayMs : BitVec 64
  maxAttempts : BitVec 32

/-- `u64::from_le_bytes`. -/
def fromLeBytes (bytes : List UInt8) : BitVec 64 :=
  BitVec.ofNat 64 (bytes.foldr (fun b n => b.toNat + 256 * n) 0)

namespace RetryPolicyWords

def validate (self : RetryPolicyWords) : Except BackendError RetryPolicyWords :=
  if self.leaseMs = 0 ∨ self.baseRetryDelayMs = 0 ∨
      self.maxRetryDelayMs < self.baseRetryDelayMs ∨ self.maxAttempts = 0 then
    .error (.invalidConfig "durable retry worker policy is invalid")
  else .ok self

def retryDelayMs (self : RetryPolicyWords) (previousAttempts : BitVec 64) :
    Option (BitVec 64) := do
  let exponent := (CheckedWord.tryFrom 32 (CheckedWord.min previousAttempts 20)).getD 20
  let factor ← CheckedWord.shiftLeft (1 : BitVec 64) exponent
  return CheckedWord.min (CheckedWord.saturatingMul self.baseRetryDelayMs factor)
    self.maxRetryDelayMs

/-- The first eight bytes of the digest of a text. -/
def entropy (sha256 : Bytes → Vector UInt8 32) (text : String) : BitVec 64 :=
  fromLeBytes ((sha256 (text.toList.flatMap String.utf8EncodeChar)).take 8).toList

def outboxRetryDelayMs (sha256 : Bytes → Vector UInt8 32) (self : RetryPolicyWords)
    (eventId : String) (attempt : BitVec 64) : Option (BitVec 64) := do
  let cap ← self.retryDelayMs attempt
  let floor ← CheckedWord.divCeil cap 2
  let entropy := entropy sha256 (eventId ++ "/" ++ toString attempt.toNat)
  let width ← CheckedWord.sub cap floor
  let choices ← CheckedWord.add width 1
  let jitter ← CheckedWord.rem entropy choices
  CheckedWord.add floor jitter

/-- The policy in numbers. -/
def toPolicy (self : RetryPolicyWords) : RetryWorkerPolicy :=
  ⟨self.leaseMs.toNat, self.baseRetryDelayMs.toNat, self.maxRetryDelayMs.toNat,
    self.maxAttempts.toNat⟩

end RetryPolicyWords

/-! ### Delays as numbers -/

namespace RetryWorkerPolicy

variable {self : RetryWorkerPolicy}

theorem retryDelayMs_le (self : RetryWorkerPolicy) (previousAttempts : ℕ) :
    self.retryDelayMs previousAttempts ≤ self.maxRetryDelayMs :=
  Nat.min_le_right _ _

/-- The factor is at least one, and the base fits in 64 bits. -/
theorem le_retryDelayMs (hbase : self.baseRetryDelayMs < 2 ^ 64)
    (hmax : self.baseRetryDelayMs ≤ self.maxRetryDelayMs) (previousAttempts : ℕ) :
    self.baseRetryDelayMs ≤ self.retryDelayMs previousAttempts := by
  have hfactor : 1 ≤ 2 ^ min previousAttempts 20 := Nat.one_le_two_pow
  have hproduct : self.baseRetryDelayMs ≤ self.baseRetryDelayMs * 2 ^ min previousAttempts 20 :=
    Nat.le_mul_of_pos_right _ hfactor
  rw [retryDelayMs]
  omega

theorem retryDelayMs_mono {attempt later : ℕ} (h : attempt ≤ later) :
    self.retryDelayMs attempt ≤ self.retryDelayMs later := by
  have hexponent : min attempt 20 ≤ min later 20 := by omega
  have hfactor : 2 ^ min attempt 20 ≤ 2 ^ min later 20 :=
    Nat.pow_le_pow_right (by omega) hexponent
  have hproduct : self.baseRetryDelayMs * 2 ^ min attempt 20 ≤
      self.baseRetryDelayMs * 2 ^ min later 20 := Nat.mul_le_mul_left _ hfactor
  rw [retryDelayMs, retryDelayMs]
  omega

theorem half_le_outboxRetryDelayMs (entropy : String → ℕ) (eventId : String) (attempt : ℕ) :
    (self.retryDelayMs attempt + 1) / 2 ≤ self.outboxRetryDelayMs entropy eventId attempt :=
  Nat.le_add_right _ _

end RetryWorkerPolicy

namespace RetryPolicyWords

variable {self : RetryPolicyWords}

/-! ### Words and numbers -/

/-- A shift by at most twenty keeps its bit. -/
theorem exists_factor (previousAttempts : BitVec 64) : ∃ factor : BitVec 64,
    CheckedWord.shiftLeft (1 : BitVec 64)
      ((CheckedWord.tryFrom 32 (CheckedWord.min previousAttempts 20)).getD 20) = some factor ∧
    factor.toNat = 2 ^ min previousAttempts.toNat 20 := by
  have hmin : (CheckedWord.min previousAttempts 20).toNat = min previousAttempts.toNat 20 :=
    CheckedWord.toNat_min previousAttempts 20
  obtain ⟨exponent, hexponent, hvalue⟩ :=
    CheckedWord.exists_tryFrom (v := 32) (a := CheckedWord.min previousAttempts 20) (by omega)
  rw [hexponent, Option.getD_some, ← hmin, ← hvalue]
  have hsmall : exponent.toNat ≤ 20 := by omega
  have hpower : 2 ^ exponent.toNat ≤ 2 ^ 20 := Nat.pow_le_pow_right (by omega) hsmall
  obtain ⟨factor, hshift, hfactor⟩ :=
    CheckedWord.exists_shiftLeft (a := (1 : BitVec 64)) (n := exponent) (by omega) (by
      show 1 * 2 ^ exponent.toNat < 2 ^ 64
      omega)
  exact ⟨factor, hshift, hfactor.trans (Nat.one_mul _)⟩

theorem retryDelayMs_eq (self : RetryPolicyWords) (previousAttempts : BitVec 64) : ∃ delay,
    self.retryDelayMs previousAttempts = some delay ∧
      delay.toNat = self.toPolicy.retryDelayMs previousAttempts.toNat := by
  obtain ⟨factor, hshift, hfactor⟩ := exists_factor previousAttempts
  refine ⟨CheckedWord.min (CheckedWord.saturatingMul self.baseRetryDelayMs factor)
    self.maxRetryDelayMs, ?_, ?_⟩
  · rw [retryDelayMs, hshift]
    rfl
  · rw [CheckedWord.toNat_min, CheckedWord.toNat_saturatingMul, hfactor]
    rfl

theorem outboxRetryDelayMs_eq (sha256 : Bytes → Vector UInt8 32) (self : RetryPolicyWords)
    (eventId : String) (attempt : BitVec 64) : ∃ delay,
    self.outboxRetryDelayMs sha256 eventId attempt = some delay ∧
      delay.toNat = self.toPolicy.outboxRetryDelayMs (fun text => (entropy sha256 text).toNat)
        eventId attempt.toNat := by
  obtain ⟨cap, hcap, hcapValue⟩ := self.retryDelayMs_eq attempt
  have hcapLt := cap.isLt
  obtain ⟨floor, hfloor, hfloorValue⟩ :=
    CheckedWord.exists_divCeil (a := cap) (b := 2) (by decide)
  have htwo : (2 : BitVec 64).toNat = 2 := rfl
  have hhalf : floor.toNat = (cap.toNat + 1) / 2 := by
    rw [hfloorValue, htwo]
    split
    · omega
    · omega
  -- half of the delay, and a number that is not zero
  obtain ⟨width, hwidth, hwidthValue⟩ :=
    CheckedWord.exists_sub (a := cap) (b := floor) (by omega)
  obtain ⟨choices, hchoices, hchoicesValue⟩ :=
    CheckedWord.exists_add (a := width) (b := 1) (by
      show width.toNat + 1 < 2 ^ 64
      omega)
  have hpositive : choices.toNat = cap.toNat - floor.toNat + 1 := by
    rw [hchoicesValue, hwidthValue]
    rfl
  obtain ⟨jitter, hjitter, hjitterValue⟩ := CheckedWord.exists_rem (b := choices)
    (a := entropy sha256 (eventId ++ "/" ++ toString attempt.toNat)) (by omega)
  have hless := Nat.mod_lt (entropy sha256 (eventId ++ "/" ++ toString attempt.toNat)).toNat
    (show choices.toNat > 0 by omega)
  obtain ⟨delay, hdelay, hdelayValue⟩ :=
    CheckedWord.exists_add (a := floor) (b := jitter) (by omega)
  refine ⟨delay, ?_, ?_⟩
  · rw [outboxRetryDelayMs, hcap]
    simp only [Option.bind_eq_bind, Option.bind_some, hfloor, hwidth, hchoices, hjitter, hdelay]
  · rw [hdelayValue, hjitterValue, hpositive, hhalf, hcapValue]
    rfl

theorem validate_eq_ok {accepted : RetryPolicyWords} (h : self.validate = .ok accepted) :
    accepted = self ∧ self.baseRetryDelayMs ≤ self.maxRetryDelayMs := by
  rw [validate] at h
  split at h
  · cases h
  · rename_i hvalid
    refine ⟨(Except.ok.inj h).symm, ?_⟩
    rw [← BitVec.not_lt]
    exact fun hless => hvalid (Or.inr (Or.inr (Or.inl hless)))

end RetryPolicyWords

/-- **Retry delays are safe at the limits.**  For a policy that `validate` accepts, the delay
lies between the base and the maximum and never decreases with the attempts, the delay with
jitter lies between its half, rounded up, and itself, and no step of either computation
overflows, underflows or divides by zero. -/
theorem retryDelays_safe (sha256 : Bytes → Vector UInt8 32)
    (self policy : RetryPolicyWords) (hvalid : self.validate = .ok policy) (eventId : String)
    (attempt : BitVec 64) :
    ∃ delay jittered, policy.retryDelayMs attempt = some delay ∧
      policy.baseRetryDelayMs ≤ delay ∧ delay ≤ policy.maxRetryDelayMs ∧
      (∀ later, attempt ≤ later →
        ∃ delay', policy.retryDelayMs later = some delay' ∧ delay ≤ delay') ∧
      policy.outboxRetryDelayMs sha256 eventId attempt = some jittered ∧
      (delay.toNat + 1) / 2 ≤ jittered.toNat ∧ jittered ≤ delay := by
  obtain ⟨rfl, hbase⟩ := RetryPolicyWords.validate_eq_ok hvalid
  obtain ⟨delay, hdelay, hvalue⟩ := policy.retryDelayMs_eq attempt
  obtain ⟨jittered, hjittered, hjitteredValue⟩ :=
    policy.outboxRetryDelayMs_eq sha256 eventId attempt
  refine ⟨delay, jittered, hdelay, ?_, ?_, fun later hlater => ?_, hjittered, ?_, ?_⟩
  · show policy.baseRetryDelayMs.toNat ≤ delay.toNat
    rw [hvalue]
    have hword : policy.toPolicy.baseRetryDelayMs < 2 ^ 64 := policy.baseRetryDelayMs.isLt
    exact RetryWorkerPolicy.le_retryDelayMs hword hbase _
  · show delay.toNat ≤ policy.maxRetryDelayMs.toNat
    rw [hvalue]
    exact policy.toPolicy.retryDelayMs_le _
  · obtain ⟨delay', hdelay', hvalue'⟩ := policy.retryDelayMs_eq later
    refine ⟨delay', hdelay', ?_⟩
    show delay.toNat ≤ delay'.toNat
    rw [hvalue, hvalue']
    exact RetryWorkerPolicy.retryDelayMs_mono hlater
  · rw [hvalue, hjitteredValue]
    exact RetryWorkerPolicy.half_le_outboxRetryDelayMs _ _ _
  · show jittered.toNat ≤ delay.toNat
    rw [hvalue, hjitteredValue]
    exact RetryWorkerPolicy.outboxRetryDelayMs_le _ _ _ _

/-- All limits at the greatest number. -/
def greatestPolicy : RetryPolicyWords where
  leaseMs := 1
  baseRetryDelayMs := BitVec.allOnes 64
  maxRetryDelayMs := BitVec.allOnes 64
  maxAttempts := 1

/-- The SHA-256 digest of `e/18446744073709551615`. -/
def greatestDigest : Vector UInt8 32 :=
  #v[172, 115, 136, 99, 22, 101, 22, 37, 215, 23, 61, 182, 118, 235, 21, 190, 61, 86, 72, 100,
    189, 88, 15, 247, 57, 214, 246, 182, 190, 64, 28, 100]

theorem retryDelays_safe_greatest : ∃ delay jittered,
    greatestPolicy.retryDelayMs (BitVec.allOnes 64) = some delay ∧
    greatestPolicy.outboxRetryDelayMs (fun _ => greatestDigest) "e" (BitVec.allOnes 64) =
      some jittered ∧
    BitVec.allOnes 64 ≤ delay ∧ (delay.toNat + 1) / 2 ≤ jittered.toNat ∧ jittered ≤ delay := by
  obtain ⟨delay, jittered, hdelay, hbase, -, -, hjittered, hhalf, hle⟩ :=
    retryDelays_safe (fun _ => greatestDigest) greatestPolicy greatestPolicy rfl "e"
      (BitVec.allOnes 64)
  exact ⟨delay, jittered, hdelay, hjittered, hbase, hhalf, hle⟩

end DbProxy
