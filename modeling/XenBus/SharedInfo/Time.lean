import XenBus.Foundations.Transition
import XenBus.Foundations.VersionedRecord

/-!
# Reading the wallclock

The loop of `SharedInfoGetTime` (`shared_info.c`). Xen updates the wallclock and the time of the processor
independently, each under a version of its own; the loop samples both versions, reads the fields that they
guard, and looks at the versions again. A step is one read of a field, or one step of an update.

Whatever the updates do, the values that the loop ends with are those of one completed update of the
wallclock and of one of the time, and both were in the shared page when the second version was sampled
(`Consistent`).
-/

namespace XenBus.SharedInfo

open Transition VersionedRecord

/-! ## Data -/

/-- The fields of `shared_info_t` that `wc_version` guards. -/
structure Wallclock where
  wc_sec : ℕ
  wc_nsec : ℕ

/-- `vcpu_time_info_t`. -/
structure TimeInfo where
  tsc_timestamp : ℕ
  system_time : ℕ
  tsc_to_system_mul : ℕ
  tsc_shift : ℤ

/-- A write of one field. -/
inductive WallclockField
  | wc_sec (v : ℕ)
  | wc_nsec (v : ℕ)

@[inherit_doc WallclockField] inductive TimeInfoField
  | tsc_timestamp (v : ℕ)
  | system_time (v : ℕ)
  | tsc_to_system_mul (v : ℕ)
  | tsc_shift (v : ℤ)

def WallclockField.set : WallclockField → Wallclock → Wallclock
  | .wc_sec v => ({ · with wc_sec := v })
  | .wc_nsec v => ({ · with wc_nsec := v })

def TimeInfoField.set : TimeInfoField → TimeInfo → TimeInfo
  | .tsc_timestamp v => ({ · with tsc_timestamp := v })
  | .system_time v => ({ · with system_time := v })
  | .tsc_to_system_mul v => ({ · with tsc_to_system_mul := v })
  | .tsc_shift v => ({ · with tsc_shift := v })

/-- The values that the loop reads. -/
structure Values where
  Seconds : ℕ
  NanoSeconds : ℕ
  SystemTime : ℕ
  Timestamp : ℕ
  TscShift : ℤ
  TscSystemMul : ℕ

/-- What is read or looked at next. -/
inductive Pc
  | wcVersion
  | timeVersion
  | seconds
  | nanoSeconds
  | systemTime
  | timestamp
  | tscShift
  | tscSystemMul
  /-- `Shared->wc_version != WcVersion`. -/
  | wcCheck
  /-- The other conditions. -/
  | timeCheck
  | rdtsc
  | returned
  deriving DecidableEq

/-- The place in the code. -/
def Pc.line : Pc → ℕ
  | .wcVersion => 0
  | .timeVersion => 1
  | .seconds => 2
  | .nanoSeconds => 3
  | .systemTime => 4
  | .timestamp => 5
  | .tscShift => 6
  | .tscSystemMul => 7
  | .wcCheck => 8
  | .timeCheck => 9
  | .rdtsc => 10
  | .returned => 11

/-- The shared page and the locals of the call. `wcSeen` and `timeSeen` are ghosts: what is guarded as it
was when its version was sampled; `timeStart` is the time at the start of the pass. -/
structure State where
  wc : Cell Wallclock
  time : Cell TimeInfo
  pc : Pc
  WcVersion : ℕ
  TimeVersion : ℕ
  values : Values
  Tsc : ℕ
  wcSeen : Cell Wallclock
  timeStart : Cell TimeInfo
  timeSeen : Cell TimeInfo

/-! ## Steps -/

/-- A step of an update. -/
inductive Update (F : Type)
  | enter
  | write (field : F)
  | leave

def Update.apply {F R : Type} (set : F → R → R) (c : Cell R) : Update F → Option (Cell R)
  | .enter => c.enter
  | .write field => c.write (set field)
  | .leave => c.leave

/-- A step of Xen, or of `SharedInfoGetTime`, which may read the counter `Tsc`. -/
inductive Action
  | wc (u : Update WallclockField)
  | time (u : Update TimeInfoField)
  | get (Tsc : ℕ)

/-- The next step of `SharedInfoGetTime`. -/
def get (s : State) (Tsc : ℕ) : Option State :=
  match s.pc with
  | .wcVersion =>
    some { s with pc := .timeVersion, WcVersion := s.wc.version, wcSeen := s.wc, timeStart := s.time }
  | .timeVersion => some { s with pc := .seconds, TimeVersion := s.time.version, timeSeen := s.time }
  | .seconds => some { s with pc := .nanoSeconds, values.Seconds := s.wc.record.wc_sec }
  | .nanoSeconds => some { s with pc := .systemTime, values.NanoSeconds := s.wc.record.wc_nsec }
  | .systemTime => some { s with pc := .timestamp, values.SystemTime := s.time.record.system_time }
  | .timestamp => some { s with pc := .tscShift, values.Timestamp := s.time.record.tsc_timestamp }
  | .tscShift => some { s with pc := .tscSystemMul, values.TscShift := s.time.record.tsc_shift }
  | .tscSystemMul =>
    some { s with pc := .wcCheck, values.TscSystemMul := s.time.record.tsc_to_system_mul }
  | .wcCheck => some { s with pc := if s.wc.version ≠ s.WcVersion then .wcVersion else .timeCheck }
  | .timeCheck =>
    some { s with
      pc := if s.time.version ≠ s.TimeVersion ∨ s.WcVersion % 2 = 1 ∨ s.TimeVersion % 2 = 1 then
        .wcVersion else .rdtsc }
  | .rdtsc => some { s with pc := .returned, Tsc := Tsc }
  | .returned => none

def step (s : State) : Action → Option State
  | .wc u => (u.apply WallclockField.set s.wc).map ({ s with wc := · })
  | .time u => (u.apply TimeInfoField.set s.time).map ({ s with time := · })
  | .get Tsc => get s Tsc

/-- Before the call, with any versions and any values. -/
def init (m n : ℕ) (wc : Wallclock) (time : TimeInfo) : State where
  wc := .fresh m wc
  time := .fresh n time
  pc := .wcVersion
  WcVersion := 0
  TimeVersion := 0
  values := ⟨0, 0, 0, 0, 0, 0⟩
  Tsc := 0
  wcSeen := .fresh m wc
  timeStart := .fresh n time
  timeSeen := .fresh n time

/-- The call is in a pass of the loop. -/
def Pc.looping (pc : Pc) : Prop := 1 ≤ pc.line ∧ pc.line ≤ 9

/-- Fewer than `2 ^ 31` updates of each kind begin in a pass of the loop. -/
def Bounded (s : State) : Action → Prop
  | .wc .enter =>
    s.pc.looping → begun s.wcSeen { s.wc with count := s.wc.count + 1 } < 2147483648
  | .time .enter =>
    s.pc.looping → begun s.timeStart { s.time with count := s.time.count + 1 } < 2147483648
  | _ => True

instance (pc : Pc) : Decidable pc.looping := inferInstanceAs (Decidable (_ ∧ _))

instance (s : State) : ∀ a, Decidable (Bounded s a)
  | .wc .enter | .time .enter => inferInstanceAs (Decidable (_ → _ < _))
  | .wc (.write _) | .wc .leave | .time (.write _) | .time .leave | .get _ => inferInstanceAs (Decidable True)

/-! ## What has been read -/

section

variable {R β : Type} {seen now now' : Cell R} {get : R → β} {x : β}

/-- A field that has been read since the version was sampled: it is that of the sample, unless an update
was in progress or the version has changed. -/
def Read (seen now : Cell R) (get : R → β) (x : β) : Prop :=
  now.count = seen.count → seen.count % 2 = 0 → x = get seen.record

theorem Read.fresh (h : Later seen now) : Read seen now get (get now.record) :=
  fun hcount heven => congrArg get (h.record_eq hcount heven)

theorem Read.later (hx : Read seen now get x) (h : Later seen now) (h' : Later now now') :
    Read seen now' get x := by
  intro hcount heven
  have hle := h.count_le
  have hle' := h'.count_le
  exact hx (by omega) heven

/-- A value that has been read before the step to the line `line`, or is read in it. -/
theorem Read.kept {k n line : ℕ} {x' : β} (hx : k ≤ n → Read seen now get x) (h : Later seen now)
    (hline : line = n + 1) (hk : k ≤ line) (hvalue : x' = x ∧ line ≠ k ∨ x' = get now.record) :
    Read seen now get x' := by
  obtain ⟨rfl, hne⟩ | rfl := hvalue
  · exact hx (by omega)
  · exact .fresh h

end

/-- What is known at each place in the code. -/
structure Reading (s : State) : Prop where
  wcSound : s.wc.Sound
  timeSound : s.time.Sound
  wcVersion : 1 ≤ s.pc.line → s.WcVersion = s.wcSeen.version ∧ s.wcSeen.Sound ∧ Later s.wcSeen s.wc ∧
    Later s.timeStart s.time
  timeVersion : 2 ≤ s.pc.line → s.TimeVersion = s.timeSeen.version ∧ s.timeSeen.Sound ∧
    Later s.timeStart s.timeSeen ∧ Later s.timeSeen s.time
  seconds : 3 ≤ s.pc.line → Read s.wcSeen s.wc Wallclock.wc_sec s.values.Seconds
  nanoSeconds : 4 ≤ s.pc.line → Read s.wcSeen s.wc Wallclock.wc_nsec s.values.NanoSeconds
  systemTime : 5 ≤ s.pc.line → Read s.timeSeen s.time TimeInfo.system_time s.values.SystemTime
  timestamp : 6 ≤ s.pc.line → Read s.timeSeen s.time TimeInfo.tsc_timestamp s.values.Timestamp
  tscShift : 7 ≤ s.pc.line → Read s.timeSeen s.time TimeInfo.tsc_shift s.values.TscShift
  tscSystemMul : 8 ≤ s.pc.line →
    Read s.timeSeen s.time TimeInfo.tsc_to_system_mul s.values.TscSystemMul
  bounded : s.pc.looping →
    begun s.wcSeen s.wc < 2147483648 ∧ begun s.timeStart s.time < 2147483648
  wcCheck : 9 ≤ s.pc.line → s.wcSeen.count % 2 = 0 →
    s.values.Seconds = s.wcSeen.record.wc_sec ∧ s.values.NanoSeconds = s.wcSeen.record.wc_nsec
  timeCheck : 10 ≤ s.pc.line → s.wcSeen.count % 2 = 0 ∧ s.timeSeen.count % 2 = 0 ∧
    s.values.SystemTime = s.timeSeen.record.system_time ∧
    s.values.Timestamp = s.timeSeen.record.tsc_timestamp ∧
    s.values.TscShift = s.timeSeen.record.tsc_shift ∧
    s.values.TscSystemMul = s.timeSeen.record.tsc_to_system_mul

variable {s s' : State}

theorem Update.apply_spec {F R : Type} {set : F → R → R} {c c' : Cell R} {u : Update F}
    (h : u.apply set c = some c') : c'.Sound ∧ Later c c' ∧
      (c'.count = c.count + 1 ∧ u = .enter ∨ (c'.count + 1) / 2 = (c.count + 1) / 2) := by
  cases u with
  | enter =>
    obtain ⟨hsound, hlater, hcount⟩ := Cell.enter_spec h
    exact ⟨hsound, hlater, .inl ⟨hcount, rfl⟩⟩
  | write field =>
    obtain ⟨hsound, hlater, hcount⟩ := Cell.write_spec h
    exact ⟨hsound, hlater, .inr (by rw [hcount])⟩
  | leave =>
    obtain ⟨hsound, hlater, hcount, hodd⟩ := Cell.leave_spec h
    exact ⟨hsound, hlater, .inr (by omega)⟩

/-- A step of an update stays within the bound if it begins no update. -/
theorem begun_lt {F R : Type} {u : Update F} {start c c' : Cell R}
    (hcount : c'.count = c.count + 1 ∧ u = .enter ∨ (c'.count + 1) / 2 = (c.count + 1) / 2)
    (hG : u = .enter → begun start { c with count := c.count + 1 } < 2147483648)
    (h : begun start c < 2147483648) : begun start c' < 2147483648 := by
  obtain ⟨hcount, hu⟩ | hcount := hcount
  · have hlt := hG hu
    unfold begun at hlt ⊢
    rwa [hcount]
  · unfold begun at h ⊢
    rwa [hcount]

theorem Reading.wc {u : Update WallclockField} {c : Cell Wallclock} (h : Reading s)
    (hG : Bounded s (.wc u)) (hs : u.apply WallclockField.set s.wc = some c) :
    Reading { s with wc := c } := by
  obtain ⟨hsound, hlater, hcount⟩ := Update.apply_spec hs
  refine { h with
    wcSound := hsound
    wcVersion := fun hline => ?_
    seconds := fun hline => ?_
    nanoSeconds := fun hline => ?_
    bounded := fun hpass => ⟨?_, (h.bounded hpass).2⟩ }
  · obtain ⟨hversion, hseen, hwc, htime⟩ := h.wcVersion hline
    exact ⟨hversion, hseen, hwc.trans hlater, htime⟩
  · exact (h.seconds hline).later (h.wcVersion (by change 3 ≤ s.pc.line at hline; omega)).2.2.1 hlater
  · exact (h.nanoSeconds hline).later (h.wcVersion (by change 4 ≤ s.pc.line at hline; omega)).2.2.1 hlater
  · refine begun_lt hcount (fun hu => ?_) (h.bounded hpass).1
    subst hu
    exact hG hpass

theorem Reading.time {u : Update TimeInfoField} {c : Cell TimeInfo} (h : Reading s)
    (hG : Bounded s (.time u)) (hs : u.apply TimeInfoField.set s.time = some c) :
    Reading { s with time := c } := by
  obtain ⟨hsound, hlater, hcount⟩ := Update.apply_spec hs
  have hseen : 2 ≤ s.pc.line → Later s.timeSeen s.time := fun hline => (h.timeVersion hline).2.2.2
  refine { h with
    timeSound := hsound
    wcVersion := fun hline => ?_
    timeVersion := fun hline => ?_
    systemTime := fun hline => (h.systemTime hline).later (hseen ?_) hlater
    timestamp := fun hline => (h.timestamp hline).later (hseen ?_) hlater
    tscShift := fun hline => (h.tscShift hline).later (hseen ?_) hlater
    tscSystemMul := fun hline => (h.tscSystemMul hline).later (hseen ?_) hlater
    bounded := fun hpass => ⟨(h.bounded hpass).1, ?_⟩ }
  · obtain ⟨hversion, hseen, hwc, htime⟩ := h.wcVersion hline
    exact ⟨hversion, hseen, hwc, htime.trans hlater⟩
  · obtain ⟨hversion, hsound, hstart, hseen⟩ := h.timeVersion hline
    exact ⟨hversion, hsound, hstart, hseen.trans hlater⟩
  iterate 4 exact le_trans (by decide) hline
  · refine begun_lt hcount (fun hu => ?_) (h.bounded hpass).2
    subst hu
    exact hG hpass

/-- A field is read, and the others stay as they were read. -/
theorem Reading.field (h : Reading s) {pc : Pc} {V : Values} (hpc : pc.line = s.pc.line + 1)
    (hline : 3 ≤ pc.line ∧ pc.line ≤ 8)
    (seconds : V.Seconds = s.values.Seconds ∧ pc.line ≠ 3 ∨ V.Seconds = s.wc.record.wc_sec)
    (nanoSeconds :
      V.NanoSeconds = s.values.NanoSeconds ∧ pc.line ≠ 4 ∨ V.NanoSeconds = s.wc.record.wc_nsec)
    (systemTime :
      V.SystemTime = s.values.SystemTime ∧ pc.line ≠ 5 ∨ V.SystemTime = s.time.record.system_time)
    (timestamp :
      V.Timestamp = s.values.Timestamp ∧ pc.line ≠ 6 ∨ V.Timestamp = s.time.record.tsc_timestamp)
    (tscShift : V.TscShift = s.values.TscShift ∧ pc.line ≠ 7 ∨ V.TscShift = s.time.record.tsc_shift)
    (tscSystemMul : V.TscSystemMul = s.values.TscSystemMul ∧ pc.line ≠ 8 ∨
      V.TscSystemMul = s.time.record.tsc_to_system_mul) :
    Reading { s with
      pc := pc
      values := V } := by
  have hwc := h.wcVersion (by omega)
  have htime := h.timeVersion (by omega)
  constructor
  case wcSound => exact h.wcSound
  case timeSound => exact h.timeSound
  case wcVersion => exact fun _ => hwc
  case timeVersion => exact fun _ => htime
  case seconds => exact fun hk => .kept h.seconds hwc.2.2.1 hpc hk seconds
  case nanoSeconds => exact fun hk => .kept h.nanoSeconds hwc.2.2.1 hpc hk nanoSeconds
  case systemTime => exact fun hk => .kept h.systemTime htime.2.2.2 hpc hk systemTime
  case timestamp => exact fun hk => .kept h.timestamp htime.2.2.2 hpc hk timestamp
  case tscShift => exact fun hk => .kept h.tscShift htime.2.2.2 hpc hk tscShift
  case tscSystemMul => exact fun hk => .kept h.tscSystemMul htime.2.2.2 hpc hk tscSystemMul
  case bounded => exact fun _ => h.bounded ⟨by omega, by omega⟩
  case wcCheck => exact fun (hk : 9 ≤ pc.line) => absurd hk (by omega)
  case timeCheck => exact fun (hk : 10 ≤ pc.line) => absurd hk (by omega)

/-- Another pass: nothing is known but that the shared page is sound. -/
theorem Reading.again (hwc : s.wc.Sound) (htime : s.time.Sound) (hpc : s.pc = .wcVersion) :
    Reading s := by
  have hline : s.pc.line = 0 := by rw [hpc]; rfl
  constructor
  case wcSound => exact hwc
  case timeSound => exact htime
  case bounded => exact fun hpass => absurd hpass.1 (by omega)
  all_goals exact fun hk => absurd hk (by omega)

/-- The version of the wallclock is sampled. -/
theorem Reading.wcSample (h : Reading s) : Reading { s with
    pc := .timeVersion
    WcVersion := s.wc.version
    wcSeen := s.wc
    timeStart := s.time } := by
  constructor
  case wcSound => exact h.wcSound
  case timeSound => exact h.timeSound
  case wcVersion => exact fun _ => ⟨rfl, h.wcSound, .refl _, .refl _⟩
  case bounded =>
    intro _
    simp only [begun, Nat.sub_self]
    decide
  all_goals exact fun hk => absurd hk (by simp [Pc.line])

/-- The version of the time is sampled. -/
theorem Reading.timeSample (h : Reading s) (hpc : s.pc = .timeVersion) : Reading { s with
    pc := .seconds
    TimeVersion := s.time.version
    timeSeen := s.time } := by
  have hline : s.pc.line = 1 := by rw [hpc]; rfl
  have hwc := h.wcVersion hline.ge
  constructor
  case wcSound => exact h.wcSound
  case timeSound => exact h.timeSound
  case wcVersion => exact fun _ => hwc
  case timeVersion => exact fun _ => ⟨rfl, h.timeSound, hwc.2.2.2, .refl _⟩
  case bounded => exact fun _ => h.bounded ⟨by omega, by omega⟩
  all_goals exact fun hk => absurd hk (by simp [Pc.line])

/-- With all values read, the call goes on: what is left to show is what a check has found. -/
theorem Reading.pass (h : Reading s) (hread : 8 ≤ s.pc.line) {pc : Pc} (Tsc : ℕ)
    (hlooping : pc.looping → s.pc.looping)
    (hwc : 9 ≤ pc.line → s.wcSeen.count % 2 = 0 →
      s.values.Seconds = s.wcSeen.record.wc_sec ∧ s.values.NanoSeconds = s.wcSeen.record.wc_nsec)
    (htime : 10 ≤ pc.line → s.wcSeen.count % 2 = 0 ∧ s.timeSeen.count % 2 = 0 ∧
      s.values.SystemTime = s.timeSeen.record.system_time ∧
      s.values.Timestamp = s.timeSeen.record.tsc_timestamp ∧
      s.values.TscShift = s.timeSeen.record.tsc_shift ∧
      s.values.TscSystemMul = s.timeSeen.record.tsc_to_system_mul) : Reading { s with
    pc := pc
    Tsc := Tsc } where
  wcSound := h.wcSound
  timeSound := h.timeSound
  wcVersion _ := h.wcVersion (by omega)
  timeVersion _ := h.timeVersion (by omega)
  seconds _ := h.seconds (by omega)
  nanoSeconds _ := h.nanoSeconds (by omega)
  systemTime _ := h.systemTime (by omega)
  timestamp _ := h.timestamp (by omega)
  tscShift _ := h.tscShift (by omega)
  tscSystemMul _ := h.tscSystemMul (by omega)
  bounded hl := h.bounded (hlooping hl)
  wcCheck := hwc
  timeCheck := htime

/-- The version of the wallclock has not changed. -/
theorem Reading.wcPass (h : Reading s) (hpc : s.pc = .wcCheck) (hversion : s.wc.version = s.WcVersion) :
    Reading { s with pc := .timeCheck } := by
  have hline : s.pc.line = 8 := by rw [hpc]; rfl
  have hlooping : s.pc.looping := ⟨by omega, by omega⟩
  have hwc := h.wcVersion (by omega)
  refine h.pass hline.ge s.Tsc (fun _ => hlooping) (fun _ heven => ?_) fun hk => absurd hk (by simp [Pc.line])
  have hcount := count_eq_of_version_eq hwc.2.2.1 heven (hversion.trans hwc.1) (h.bounded hlooping).1
  exact ⟨h.seconds (by omega) hcount heven, h.nanoSeconds (by omega) hcount heven⟩

/-- The loop ends. -/
theorem Reading.timePass (h : Reading s) (hpc : s.pc = .timeCheck)
    (hversion : s.time.version = s.TimeVersion) (hwcEven : s.WcVersion % 2 = 0)
    (htimeEven : s.TimeVersion % 2 = 0) : Reading { s with pc := .rdtsc } := by
  have hline : s.pc.line = 9 := by rw [hpc]; rfl
  have hwc := h.wcVersion (by omega)
  have htime := h.timeVersion (by omega)
  have hbounded := h.bounded ⟨by omega, by omega⟩
  refine h.pass (by omega) s.Tsc (fun hl => absurd hl.2 (by simp [Pc.line])) (fun _ => h.wcCheck (by omega))
    fun _ => ?_
  have heven : s.wcSeen.count % 2 = 0 := by
    rw [hwc.1, Cell.version] at hwcEven
    omega
  have heven' : s.timeSeen.count % 2 = 0 := by
    rw [htime.1, Cell.version] at htimeEven
    omega
  have hbegun : begun s.timeSeen s.time < 2147483648 := by
    have hle := htime.2.2.1.count_le
    have hlt := hbounded.2
    unfold begun at hlt ⊢
    omega
  have hcount := count_eq_of_version_eq htime.2.2.2 heven' (hversion.trans htime.1) hbegun
  exact ⟨heven, heven', h.systemTime (by omega) hcount heven', h.timestamp (by omega) hcount heven',
    h.tscShift (by omega) hcount heven', h.tscSystemMul (by omega) hcount heven'⟩

/-- The counter is read after the loop. -/
theorem Reading.counter (h : Reading s) (hpc : s.pc = .rdtsc) (Tsc : ℕ) : Reading { s with
    pc := .returned
    Tsc := Tsc } := by
  have hline : s.pc.line = 10 := by rw [hpc]; rfl
  exact h.pass (by omega) Tsc (fun hl => absurd hl.2 (by simp [Pc.line])) (fun _ => h.wcCheck (by omega))
    fun _ => h.timeCheck (by omega)

/-- A step of the call keeps what is known. -/
theorem Reading.get {Tsc : ℕ} (h : Reading s) (hs : get s Tsc = some s') : Reading s' := by
  unfold SharedInfo.get at hs
  cases hpc : s.pc <;> simp only [hpc] at hs
  case returned => cases hs
  all_goals obtain rfl := Option.some.inj hs
  case wcVersion => exact h.wcSample
  case timeVersion => exact h.timeSample hpc
  case wcCheck =>
    split_ifs with hversion
    · exact .again h.wcSound h.timeSound rfl
    · exact h.wcPass hpc (not_not.mp hversion)
  case timeCheck =>
    split_ifs with hcond
    · exact .again h.wcSound h.timeSound rfl
    · simp only [not_or, not_not] at hcond
      exact h.timePass hpc hcond.1 (by omega) (by omega)
  case rdtsc => exact h.counter hpc Tsc
  all_goals
    refine h.field (by rw [hpc]; rfl) (by decide) ?_ ?_ ?_ ?_ ?_ ?_ <;>
      first | exact .inr rfl | exact .inl ⟨rfl, by decide⟩

theorem Reading.step {a : Action} (h : Reading s) (hG : Bounded s a)
    (hs : SharedInfo.step s a = some s') : Reading s' := by
  cases a with
  | wc u =>
    obtain ⟨c, hc, rfl⟩ := Option.map_eq_some_iff.mp hs
    exact h.wc hG hc
  | time u =>
    obtain ⟨c, hc, rfl⟩ := Option.map_eq_some_iff.mp hs
    exact h.time hG hc
  | get Tsc => exact h.get hs

theorem reading_init (m n : ℕ) (wc : Wallclock) (time : TimeInfo) : Reading (init m n wc time) :=
  .again (Cell.sound_fresh m wc) (Cell.sound_fresh n time) rfl

/-- The values are those of one completed update of the wallclock and one of the time. -/
def Consistent (s : State) : Prop :=
  ∃ wc ∈ s.wc.completed, ∃ time ∈ s.time.completed, s.values =
    ⟨wc.wc_sec, wc.wc_nsec, time.system_time, time.tsc_timestamp, time.tsc_shift, time.tsc_to_system_mul⟩

/-- What the loop ends with is consistent. -/
theorem Reading.consistent (h : Reading s) (hpc : s.pc = .returned) : Consistent s := by
  have hline : s.pc.line = 11 := by rw [hpc]; rfl
  obtain ⟨-, hwcSound, hwcLater, -⟩ := h.wcVersion (by omega)
  obtain ⟨-, htimeSound, -, htimeLater⟩ := h.timeVersion (by omega)
  obtain ⟨hwcEven, htimeEven, hsystem, htimestamp, hshift, hmul⟩ := h.timeCheck (by omega)
  obtain ⟨hsec, hnsec⟩ := h.wcCheck (by omega) hwcEven
  refine ⟨_, hwcLater.completed _ (hwcSound hwcEven), _, htimeLater.completed _ (htimeSound htimeEven), ?_⟩
  rw [← hsec, ← hnsec, ← hsystem, ← htimestamp, ← hshift, ← hmul]

/-- **No read is torn.** However the updates and the reads interleave, with fewer than `2 ^ 31` updates in
a pass of the loop, what the call returns is made of one completed update of each kind. -/
theorem consistent_of_reaches {m n : ℕ} {wc : Wallclock} {time : TimeInfo}
    (h : Reaches SharedInfo.step Bounded (init m n wc time) s) (hpc : s.pc = .returned) : Consistent s := by
  have hreading : Reading s := h.invariant (reading_init m n wc time) fun _ _ _ h hG hs => h.step hG hs
  exact hreading.consistent hpc

end XenBus.SharedInfo
