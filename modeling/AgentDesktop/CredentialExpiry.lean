import AgentDesktop.DeviceLogin
import Mathlib.Data.Int.Order.Basic

namespace AgentDesktop

/-- A reading of the monotonic clock: signed seconds in 64 bits and nanoseconds. -/
structure Instant where
  seconds : Int
  nanos : Nat
  lower : -9223372036854775808 ≤ seconds
  upper : seconds < 9223372036854775808
  bounded : nanos < 1000000000

/-- `Instant + Duration` for whole seconds, which panics when the sum does not fit. -/
def Instant.add (instant : Instant) (seconds : Nat) : Option Instant :=
  if h : instant.seconds + seconds < 9223372036854775808 then
    some
      { instant with
        seconds := instant.seconds + seconds
        lower := by
          have hlower := instant.lower
          omega
        upper := h }
  else none

def Instant.nanoseconds (instant : Instant) : Int :=
  instant.seconds * 1000000000 + instant.nanos

/-- Addition of `u64` values, which panics when the sum does not fit. -/
def checkedAdd (a : UInt64) (b : Nat) : Option UInt64 :=
  if a.toNat + b < UInt64.size then some (UInt64.ofNat (a.toNat + b)) else none

/-- A point in time on both clocks, in the types of the program. -/
structure InstantDeadline where
  monotonic : Instant
  unix : UInt64

structure InstantCredential where
  credential : String
  deviceId : String
  validUntil : Instant
  validUntilUnix : UInt64
  expires : Instant
  expiresUnix : UInt64

/-- `Deadline::from_unix`, with no value where it panics. -/
def InstantDeadline.fromUnix (expiresUnix nowUnix : UInt64) (now : Instant) : Option InstantDeadline := do
  let monotonic ← now.add (expiresUnix.toNat - nowUnix.toNat)
  return ⟨monotonic, expiresUnix⟩

/-- The entry that `insert` makes, or none where it removes it, with no value where it panics. -/
def instantCredential (deviceId credential : String) (expiresUnix nowUnix : UInt64) (now later : Instant) :
    Option (Option InstantCredential) :=
  let remaining := expiresUnix.toNat - nowUnix.toNat
  let lifetime := min (remaining - credentialExpiryMargin) credentialCacheTtl
  if lifetime > 0 then do
    let validUntil ← now.add lifetime
    let validUntilUnix ← checkedAdd nowUnix lifetime
    let expires ← later.add remaining
    return some ⟨credential, deviceId, validUntil, validUntilUnix, expires, expiresUnix⟩
  else some none

theorem Instant.add_isSome (instant : Instant) (seconds : Nat) :
    (instant.add seconds).isSome = true ↔ instant.seconds + seconds < 9223372036854775808 := by
  unfold Instant.add
  split
  next h => exact iff_of_true rfl h
  next h => exact iff_of_false (by simp) h

theorem Instant.add_nanoseconds {instant sum : Instant} {seconds : Nat} (h : instant.add seconds = some sum) :
    sum.nanoseconds = instant.nanoseconds + fromSecs seconds := by
  unfold Instant.add at h
  split at h
  next =>
    cases h
    simp only [Instant.nanoseconds, fromSecs]
    omega
  next => cases h

/-- The wall-clock deadline never overflows: it is not after the expiry. -/
theorem checkedAdd_lifetime (expiresUnix nowUnix : UInt64) {lifetime : Nat}
    (h : lifetime ≤ expiresUnix.toNat - nowUnix.toNat) (hpos : 0 < lifetime) :
    ∃ sum, checkedAdd nowUnix lifetime = some sum ∧ sum.toNat = nowUnix.toNat + lifetime := by
  have hbound : expiresUnix.toNat < UInt64.size := expiresUnix.toNat_lt
  have hfits : nowUnix.toNat + lifetime < UInt64.size := by omega
  refine ⟨UInt64.ofNat (nowUnix.toNat + lifetime), if_pos hfits, ?_⟩
  exact UInt64.toNat_ofNat_of_lt' hfits

/-- The monotonic clock can count the seconds on from a reading. -/
def Instant.Reaches (instant : Instant) (seconds : Nat) : Prop :=
  instant.seconds + seconds < 9223372036854775808

theorem instantCredential_isSome (deviceId credential : String) (expiresUnix nowUnix : UInt64) (now later : Instant) :
    (instantCredential deviceId credential expiresUnix nowUnix now later).isSome = true ↔
      min (expiresUnix.toNat - nowUnix.toNat - credentialExpiryMargin) credentialCacheTtl = 0 ∨
        now.Reaches (min (expiresUnix.toNat - nowUnix.toNat - credentialExpiryMargin) credentialCacheTtl) ∧
          later.Reaches (expiresUnix.toNat - nowUnix.toNat) := by
  unfold instantCredential
  dsimp only
  split
  next hpos =>
    have hle : min (expiresUnix.toNat - nowUnix.toNat - credentialExpiryMargin) credentialCacheTtl ≤
        expiresUnix.toNat - nowUnix.toNat := by omega
    obtain ⟨sum, hsum, _⟩ := checkedAdd_lifetime expiresUnix nowUnix hle hpos
    have hfirst := Instant.add_isSome now
      (min (expiresUnix.toNat - nowUnix.toNat - credentialExpiryMargin) credentialCacheTtl)
    have hsecond := Instant.add_isSome later (expiresUnix.toNat - nowUnix.toNat)
    unfold Instant.Reaches
    rw [hsum, ← hfirst, ← hsecond]
    cases now.add (min (expiresUnix.toNat - nowUnix.toNat - credentialExpiryMargin) credentialCacheTtl) with
    | none => simp [Nat.ne_of_gt hpos]
    | some validUntil =>
      cases later.add (expiresUnix.toNat - nowUnix.toNat) with
      | none => simp [Nat.ne_of_gt hpos]
      | some expires => simp
  next hzero => exact iff_of_true rfl (Or.inl (by omega))

def InstantCredential.unbounded (entry : InstantCredential) : CachedCredential where
  credential := entry.credential
  deviceId := entry.deviceId
  validUntil := entry.validUntil.nanoseconds.toNat
  validUntilUnix := entry.validUntilUnix.toNat
  expires := entry.expires.nanoseconds.toNat
  expiresUnix := entry.expiresUnix.toNat

variable {expiresUnix nowUnix : UInt64} {now later : Instant} {start next : Nat}

/-- Where it does not panic, the deadline is the one on unbounded clocks. -/
theorem fromUnix_unbounded {deadline : InstantDeadline} (hnow : now.nanoseconds = start)
    (h : InstantDeadline.fromUnix expiresUnix nowUnix now = some deadline) :
    Deadline.fromUnix expiresUnix.toNat start nowUnix.toNat =
      ⟨deadline.monotonic.nanoseconds.toNat, deadline.unix.toNat⟩ := by
  obtain ⟨monotonic, hmonotonic, hdeadline⟩ := Option.bind_eq_some_iff.mp h
  cases hdeadline
  have hsum := Instant.add_nanoseconds hmonotonic
  rw [hnow] at hsum
  simp only [Deadline.fromUnix, Deadline.mk.injEq, and_true]
  omega

/-- Where it does not panic, the entry is the one on unbounded clocks. -/
theorem instantCredential_unbounded {deviceId credential : String} {entry : Option InstantCredential}
    (hnow : now.nanoseconds = start) (hlater : later.nanoseconds = next)
    (h : instantCredential deviceId credential expiresUnix nowUnix now later = some entry) :
    cachedCredential deviceId ⟨credential, expiresUnix.toNat⟩ nowUnix.toNat start next =
      entry.map InstantCredential.unbounded := by
  unfold instantCredential at h
  unfold cachedCredential
  dsimp only at h ⊢
  split at h
  next hpos =>
    obtain ⟨validUntil, hvalid, h⟩ := Option.bind_eq_some_iff.mp h
    obtain ⟨validUntilUnix, hunix, h⟩ := Option.bind_eq_some_iff.mp h
    obtain ⟨expires, hexpires, h⟩ := Option.bind_eq_some_iff.mp h
    cases h
    have hle : min (expiresUnix.toNat - nowUnix.toNat - credentialExpiryMargin) credentialCacheTtl ≤
        expiresUnix.toNat - nowUnix.toNat := by omega
    obtain ⟨sum, hsum, hvalue⟩ := checkedAdd_lifetime expiresUnix nowUnix hle hpos
    cases hunix.symm.trans hsum
    have hfirst := Instant.add_nanoseconds hvalid
    have hsecond := Instant.add_nanoseconds hexpires
    rw [hnow] at hfirst
    rw [hlater] at hsecond
    rw [if_pos hpos]
    simp only [Option.map_some, InstantCredential.unbounded, Option.some.injEq, CachedCredential.mk.injEq, true_and,
      and_true, hvalue]
    omega
  next hzero =>
    cases h
    rw [if_neg hzero]
    rfl

/-- The deadlines are computed just where the monotonic clock can count up to the expiry, and
a credential that is cached needs that too. -/
theorem expiry_handled_iff (deviceId credential : String) (expiresUnix nowUnix : UInt64) (now later : Instant) :
    ((InstantDeadline.fromUnix expiresUnix nowUnix now).isSome = true ↔
        now.Reaches (expiresUnix.toNat - nowUnix.toNat)) ∧
      ((instantCredential deviceId credential expiresUnix nowUnix now later).isSome = true ↔
        min (expiresUnix.toNat - nowUnix.toNat - credentialExpiryMargin) credentialCacheTtl = 0 ∨
          now.Reaches (min (expiresUnix.toNat - nowUnix.toNat - credentialExpiryMargin) credentialCacheTtl) ∧
            later.Reaches (expiresUnix.toNat - nowUnix.toNat)) := by
  refine ⟨?_, instantCredential_isSome deviceId credential expiresUnix nowUnix now later⟩
  unfold Instant.Reaches
  rw [← Instant.add_isSome]
  unfold InstantDeadline.fromUnix
  cases now.add (expiresUnix.toNat - nowUnix.toNat) with
  | none => rfl
  | some monotonic => rfl

def firstInstant : Instant := ⟨1000, 0, by decide, by decide, by decide⟩

/-- A refresh answered with the longest lifetime saturates to the largest expiry. -/
theorem largest_expiry_panics :
    ((⟨"old", some "refresh", 0, "https://idp.example/token"⟩ : StoredTokens).refreshed
        ⟨"new", none, 18446744073709551615⟩ 1700000000).asCredential.expiresAtUnixSeconds = 18446744073709551615 ∧
      (InstantDeadline.fromUnix 18446744073709551615 1700000000 firstInstant).isSome = false ∧
      (instantCredential "device" "new" 18446744073709551615 1700000000 firstInstant firstInstant).isSome = false := by
  refine ⟨by decide, ?_, ?_⟩
  · decide
  · decide

end AgentDesktop
