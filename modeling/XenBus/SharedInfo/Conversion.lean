import XenBus.SharedInfo.Time
import Mathlib.Tactic.Ring
import Mathlib.Tactic.NormNum

/-!
# From the wallclock to the system time

What `SharedInfoGetTime` does with the values that its loop has read: the ticks since the timestamp are
scaled to nanoseconds, added to the system time, and put together with the wallclock, in units of 100
nanoseconds since 1601. The arithmetic is that of 64-bit words; `fits_iff` says on which values no
intermediate result overflows, and that the time is exact on these.

A 32-bit build multiplies the ticks by the factor in 64 bits, where a 64-bit build has an intrinsic with
a product of 128 bits; so it needs an age below `2 ^ 32` nanoseconds, a little more than four seconds
(`age_overflows`).
-/

namespace XenBus.SharedInfo

open Transition

/-! ## The code -/

/-- `NS_PER_S`. -/
abbrev NS_PER_S : ℕ := 1000000000

/-- `Age`, in ticks: `Age >>= -TscShift` or `Age <<= TscShift`. A shift by 64 or more is undefined. -/
def ageTicks (v : Values) (Tsc : ℕ) : Option ℕ :=
  let Age := (Tsc + 2 ^ 64 - v.Timestamp) % 2 ^ 64
  if v.TscShift ≤ -64 ∨ 64 ≤ v.TscShift then none
  else if v.TscShift < 0 then some (Age >>> (-v.TscShift).toNat)
  else some ((Age <<< v.TscShift.toNat) % 2 ^ 64)

/-- `Age`, in nanoseconds: the product in 64 bits with `_X86_`, and `UnsignedMultiplyExtract128` without. -/
def scaleAge (x86 : Bool) (Age TscSystemMul : ℕ) : ℕ :=
  if x86 then (Age * TscSystemMul % 2 ^ 64) >>> 32 else ((Age * TscSystemMul) >>> 32) % 2 ^ 64

/-- `Time`, from the wallclock and the time since boot. -/
def convert (Seconds NanoSeconds SystemTime : ℕ) : ℕ :=
  let Seconds := (Seconds + 11644473600) % 2 ^ 64
  let Seconds := (Seconds + SystemTime / NS_PER_S) % 2 ^ 64
  let NanoSeconds := (NanoSeconds + SystemTime % NS_PER_S) % 2 ^ 64
  (Seconds * NS_PER_S % 2 ^ 64 + NanoSeconds) % 2 ^ 64 / 100

/-- `SharedInfoGetTime`, after the loop. -/
def sharedInfoGetTime (x86 : Bool) (v : Values) (Tsc : ℕ) : Option ℕ :=
  (ageTicks v Tsc).map fun Age =>
    convert v.Seconds v.NanoSeconds ((v.SystemTime + scaleAge x86 Age v.TscSystemMul) % 2 ^ 64)

/-! ## The time -/

/-- The ticks since the timestamp, scaled by the shift. -/
def ticks (v : Values) (Tsc : ℕ) : ℤ :=
  if v.TscShift < 0 then (Tsc - v.Timestamp : ℤ) / 2 ^ (-v.TscShift).toNat
  else (Tsc - v.Timestamp : ℤ) * 2 ^ v.TscShift.toNat

/-- The nanoseconds since the timestamp. -/
def age (v : Values) (Tsc : ℕ) : ℤ := ticks v Tsc * v.TscSystemMul / 2 ^ 32

/-- The time in units of 100 nanoseconds since 1601. -/
def exactTime (v : Values) (Tsc : ℕ) : ℤ :=
  ((v.Seconds + 11644473600) * 10 ^ 9 + v.NanoSeconds + v.SystemTime + age v Tsc) / 100

/-- The values have their types; the nanoseconds are less than a second, and the time since boot is less
than `2 ^ 61` nanoseconds. -/
structure Plausible (v : Values) (Tsc : ℕ) : Prop where
  seconds : v.Seconds < 2 ^ 32
  nanoSeconds : v.NanoSeconds < 10 ^ 9
  systemTime : v.SystemTime < 2 ^ 64
  timestamp : v.Timestamp < 2 ^ 64
  tscSystemMul : v.TscSystemMul < 2 ^ 32
  tsc : Tsc < 2 ^ 64
  boot : v.SystemTime + age v Tsc < 2 ^ 61

/-- Every 64-bit intermediate result is that of the integers. -/
structure Fits (x86 : Bool) (v : Values) (Tsc : ℕ) : Prop where
  difference : (0 : ℤ) ≤ Tsc - v.Timestamp
  shift : -64 < v.TscShift ∧ v.TscShift < 64
  shifted : ticks v Tsc < 2 ^ 64
  product : x86 = true → ticks v Tsc * v.TscSystemMul < 2 ^ 64
  scaled : age v Tsc < 2 ^ 64
  boot : v.SystemTime + age v Tsc < 2 ^ 64
  epoch : v.Seconds + 11644473600 < 2 ^ 64
  seconds : v.Seconds + 11644473600 + (v.SystemTime + age v Tsc) / NS_PER_S < 2 ^ 64
  nanoSeconds : v.NanoSeconds + (v.SystemTime + age v Tsc) % NS_PER_S < 2 ^ 64
  scaledSeconds : (v.Seconds + 11644473600 + (v.SystemTime + age v Tsc) / NS_PER_S) * NS_PER_S < 2 ^ 64
  sum : (v.Seconds + 11644473600 + (v.SystemTime + age v Tsc) / NS_PER_S) * NS_PER_S +
    (v.NanoSeconds + (v.SystemTime + age v Tsc) % NS_PER_S) < 2 ^ 64

/-- Nothing overflows, and the time is exact. -/
def Exact (x86 : Bool) (v : Values) (Tsc : ℕ) : Prop :=
  Fits x86 v Tsc ∧ ∃ Time, sharedInfoGetTime x86 v Tsc = some Time ∧ (Time : ℤ) = exactTime v Tsc

/-- The counter has not been read before the timestamp, the shift is defined and loses no bits, and in a
32-bit build the age is below `2 ^ 32` nanoseconds. -/
structure Scalable (x86 : Bool) (v : Values) (Tsc : ℕ) : Prop where
  order : v.Timestamp ≤ Tsc
  shift : -64 < v.TscShift ∧ v.TscShift < 64
  bits : (Tsc - v.Timestamp) * 2 ^ v.TscShift.toNat < 2 ^ 64
  young : x86 = true → age v Tsc < 2 ^ 32

variable {x86 : Bool} {v : Values} {Tsc : ℕ}

/-- With less than `2 ^ 61` nanoseconds since boot, nothing overflows once the age has been scaled. -/
theorem convert_eq {Seconds NanoSeconds SystemTime : ℕ} (hs : Seconds < 2 ^ 32)
    (hn : NanoSeconds < 10 ^ 9) (hb : SystemTime < 2 ^ 61) :
    convert Seconds NanoSeconds SystemTime =
      ((Seconds + 11644473600) * 10 ^ 9 + NanoSeconds + SystemTime) / 100 := by
  unfold convert
  simp only [NS_PER_S]
  omega

/-- Without a wrap, the ticks are those of the integers. -/
theorem ageTicks_eq (horder : v.Timestamp ≤ Tsc) (htsc : Tsc < 2 ^ 64)
    (hshift : -64 < v.TscShift ∧ v.TscShift < 64)
    (hbits : (Tsc - v.Timestamp) * 2 ^ v.TscShift.toNat < 2 ^ 64) :
    ∃ Age, ageTicks v Tsc = some Age ∧ (Age : ℤ) = ticks v Tsc ∧ Age < 2 ^ 64 := by
  have hdiff : (Tsc + 2 ^ 64 - v.Timestamp) % 2 ^ 64 = Tsc - v.Timestamp := by omega
  unfold ageTicks ticks
  rw [if_neg (by omega), hdiff]
  split_ifs
  · refine ⟨_, rfl, ?_, ?_⟩
    · rw [Nat.shiftRight_eq_div_pow]
      push_cast [horder]
      rfl
    · rw [Nat.shiftRight_eq_div_pow]
      exact (Nat.div_le_self _ _).trans_lt (by omega)
  · rw [Nat.shiftLeft_eq, Nat.mod_eq_of_lt hbits]
    refine ⟨_, rfl, ?_, hbits⟩
    push_cast [horder]
    rfl

/-- The age is scaled exactly. The product has at most 96 bits. -/
theorem scaleAge_eq {Age TscSystemMul : ℕ} (hAge : Age < 2 ^ 64) (hmul : TscSystemMul < 2 ^ 32)
    (hx86 : x86 = true → Age * TscSystemMul < 2 ^ 64) :
    scaleAge x86 Age TscSystemMul = Age * TscSystemMul / 2 ^ 32 := by
  unfold scaleAge
  split_ifs with hbuild
  · rw [Nat.mod_eq_of_lt (hx86 hbuild), Nat.shiftRight_eq_div_pow]
  · have hproduct : Age * TscSystemMul < 2 ^ 64 * 2 ^ 32 := Nat.mul_lt_mul'' hAge hmul
    rw [Nat.shiftRight_eq_div_pow]
    exact Nat.mod_eq_of_lt (Nat.div_lt_of_lt_mul (by omega))

theorem Scalable.exact (h : Scalable x86 v Tsc) (hv : Plausible v Tsc) : Exact x86 v Tsc := by
  obtain ⟨Age, hticks, hAge, hlt⟩ := ageTicks_eq h.order hv.tsc h.shift h.bits
  set a := Age * v.TscSystemMul / 2 ^ 32 with ha
  have hage : age v Tsc = (a : ℤ) := by
    rw [age, ← hAge, ha]
    push_cast
    rfl
  have hproduct : x86 = true → Age * v.TscSystemMul < 2 ^ 64 := by
    intro hx86
    have hage := hage ▸ h.young hx86
    omega
  have hboot := hage ▸ hv.boot
  have hsec := hv.seconds
  have hnsec := hv.nanoSeconds
  have hscaled : scaleAge x86 Age v.TscSystemMul = a := scaleAge_eq hlt hv.tscSystemMul hproduct
  constructor
  · have horder := h.order
    constructor
    case difference => omega
    case shift => exact h.shift
    case shifted => omega
    case product =>
      intro hx86
      have hnat := hproduct hx86
      rw [← hAge]
      exact_mod_cast hnat
    case epoch => omega
    all_goals
      simp only [hage, NS_PER_S]
      omega
  · refine ⟨_, by rw [sharedInfoGetTime, hticks, Option.map_some, hscaled], ?_⟩
    rw [Nat.mod_eq_of_lt (by omega), convert_eq hsec hnsec (by omega), exactTime, hage, add_assoc]
    push_cast
    ring_nf

theorem Fits.scalable (h : Fits x86 v Tsc) (hv : Plausible v Tsc) : Scalable x86 v Tsc := by
  have hdifference := h.difference
  have hshifted := h.shifted
  constructor
  case order => omega
  case shift => exact h.shift
  case bits =>
    have horder : v.Timestamp ≤ Tsc := by omega
    unfold ticks at hshifted
    split_ifs at hshifted with hneg
    · have htsc := hv.tsc
      rw [Int.toNat_of_nonpos hneg.le]
      omega
    · rw [← Nat.cast_sub horder] at hshifted
      exact_mod_cast hshifted
  case young =>
    intro hx86
    exact Int.ediv_lt_of_lt_mul (by norm_num) (h.product hx86)

/-- The time is exact and nothing overflows on the way if and only if the age can be scaled. -/
theorem exact_iff (hv : Plausible v Tsc) : Exact x86 v Tsc ↔ Scalable x86 v Tsc :=
  ⟨fun h => h.1.scalable hv, fun h => h.exact hv⟩

/-- **The wallclock is read whole, and converted exactly where the age can be scaled.** In every run the
values that the loop ends with are those of one completed update of each kind; and for all values of less
than `2 ^ 61` nanoseconds since boot, nothing overflows and the time is exact if and only if the shift
loses no bits and, in a 32-bit build, the age is below `2 ^ 32` nanoseconds. -/
theorem consistent_and_exact_iff (x86 : Bool) (v : Values) (Tsc : ℕ) :
    (∀ m n wc time s, Reaches step Bounded (init m n wc time) s → s.pc = .returned → Consistent s) ∧
      (Plausible v Tsc → (Exact x86 v Tsc ↔ Scalable x86 v Tsc)) :=
  ⟨fun _ _ _ _ _ h hpc => consistent_of_reaches h hpc, fun hv => exact_iff hv⟩

/-! ## A run -/

/-- Ticks of two nanoseconds: `tsc_to_system_mul` is `2 ^ 31`, with a shift of 2. -/
def boot : TimeInfo := ⟨0, 1000, 2147483648, 2⟩

/-- A call during which the wallclock is updated: the first pass is repeated, and the second one reads the
new values. -/
theorem consistent_and_exact_run : ∃ s, Reaches step Bounded (init 0 0 ⟨5, 6⟩ boot) s ∧
    s.values = ⟨7, 8, 1000, 0, 2, 2147483648⟩ ∧ s.Tsc = 500 ∧ Consistent s ∧
      Exact true s.values s.Tsc ∧ sharedInfoGetTime true s.values s.Tsc = some 116444736070000020 := by
  obtain ⟨s, hs, hpc, hvalues, hTsc⟩ : ∃ s,
      guardedRun step Bounded (init 0 0 ⟨5, 6⟩ boot)
        (List.replicate 3 (.get 0) ++ [.wc .enter, .wc (.write (.wc_sec 7)), .wc (.write (.wc_nsec 8)),
          .wc .leave] ++ List.replicate 17 (.get 500)) = some s ∧ s.pc = .returned ∧
      s.values = ⟨7, 8, 1000, 0, 2, 2147483648⟩ ∧ s.Tsc = 500 := ⟨_, rfl, rfl, rfl, rfl⟩
  have h := reaches_of_guardedRun hs
  obtain ⟨hconsistent, hexact⟩ := consistent_and_exact_iff true s.values s.Tsc
  refine ⟨s, h, hvalues, hTsc, hconsistent _ _ _ _ s h hpc, ?_, ?_⟩
  · rw [hvalues, hTsc] at hexact ⊢
    exact (hexact ⟨by decide, by decide, by decide, by decide, by decide, by decide,
      by decide⟩).mpr ⟨by decide, by decide, by decide, by decide⟩
  · rw [hvalues, hTsc]
    decide

/-- **In a 32-bit build the product overflows**: with an age of `2 ^ 32` nanoseconds the code adds nothing
to the system time. -/
theorem age_overflows : Plausible ⟨0, 0, 0, 0, 0, 2147483648⟩ 8589934592 ∧
    age ⟨0, 0, 0, 0, 0, 2147483648⟩ 8589934592 = 4294967296 ∧
    ¬ Exact true ⟨0, 0, 0, 0, 0, 2147483648⟩ 8589934592 ∧
    sharedInfoGetTime true ⟨0, 0, 0, 0, 0, 2147483648⟩ 8589934592 = some 116444736000000000 ∧
    exactTime ⟨0, 0, 0, 0, 0, 2147483648⟩ 8589934592 = 116444736042949672 := by
  have hage : age ⟨0, 0, 0, 0, 0, 2147483648⟩ 8589934592 = 4294967296 := by decide
  refine ⟨⟨by decide, by decide, by decide, by decide, by decide, by decide, by rw [hage]; decide⟩, hage,
    fun h => ?_, by decide, by decide⟩
  exact absurd (h.1.product rfl) (by decide)

end XenBus.SharedInfo
