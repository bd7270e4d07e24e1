import XenBus.Store.Sections

/-!
# The guest and the backend agree on the watches

The backend forgets the watches when the guest is suspended. The early callback clears `Active` in every
watch of the list, and the late one signals their events, so that their owners add them again.
-/

namespace XenBus.Store.Operations

open Requests Transition

variable {ι : Type} {s s' : State ι}

/-! ## The request for a watch -/

theorem Watch.length_token (watch : Watch) : watch.Token.length = 25 := by
  simp [Watch.Token, CString.length_hex]

/-- The request for a watch is always prepared: its path and its token fit. -/
theorem prepared_of_watch {watch : Watch} (h : watch.Path.length < 3072) (RequestId : ℕ) :
    (storePrepareRequest RequestId none XS_WATCH [watch.Path, [0], watch.Token, [0]]).1 ≠ none := by
  have htoken := watch.length_token
  simp only [storePrepareRequest, addSegments, List.length_cons, List.length_nil, List.length_append]
  rw [if_neg (by omega), if_neg (by omega), if_neg (by omega), if_neg (by omega), if_neg (by omega),
    if_neg (by omega), if_neg (by omega), if_neg (by omega)]
  simp

/-! ## Where a watch is -/

/-- The watch that the call is about. -/
def Op.watch : Op → Option ℕ
  | .add w | .remove w => some w
  | _ => none

/-- The watch that the thread works on. -/
def Pc.watch : Pc → Option ℕ
  | .insert w | .undo w _ | .drop w => some w
  | .prepare op | .submit op _ | .wait op => op.watch
  | _ => none

/-- The watch that the call adds. -/
def Op.adds : Op → Option ℕ
  | .add w => some w
  | _ => none

/-- The watch on the list that the thread works on and that the backend does not know. -/
def Pc.unknown : Pc → Option ℕ
  | .undo w _ | .drop w => some w
  | .prepare op | .submit op _ | .wait op => op.adds
  | _ => none

theorem Pc.watch_of_unknown {pc : Pc} {w : ℕ} (h : pc.unknown = some w) : pc.watch = some w := by
  have hop : ∀ op : Op, op.adds = some w → op.watch = some w := fun op hop => by
    cases op <;> first | exact hop | cases hop
  cases pc <;> first | exact h | exact hop _ h | cases h

/-- The invariant. -/
structure Watched (s : State ι) : Prop where
  memory : ∀ w ∈ s.WatchList, s.Watches w ≠ none
  nodup : s.WatchList.Nodup
  ids : ∀ w ∈ s.WatchList, ∀ w' ∈ s.WatchList, ∀ watch watch', s.Watches w = some watch →
    s.Watches w' = some watch' → watch.Id = watch'.Id → w = w'
  settled : ∀ w ∈ s.WatchList, ∀ watch, s.Watches w = some watch →
    (∀ t, (s.pc t).unknown ≠ some w) → s.registrations watch.key = watch.Active
  unknown : ∀ t w watch, (s.pc t).unknown = some w → s.Watches w = some watch →
    s.registrations watch.key = false
  owner : ∀ key, s.registrations key = true →
    ∃ w ∈ s.WatchList, ∃ watch, s.Watches w = some watch ∧ watch.key = key
  listed : ∀ t w, (s.pc t).watch = some w → s.pc t = .insert w ∨ w ∈ s.WatchList
  inserting : ∀ t w, s.pc t = .insert w → w ∉ s.WatchList
  owned : ∀ w, s.Owned w = true → w ∈ s.WatchList ∧ ∀ t, (s.pc t).watch ≠ some w
  apart : ∀ t t' w, (s.pc t).watch = some w → (s.pc t').watch = some w → t = t'
  below : ∀ t w, (s.pc t).watch = some w ∨ w ∈ s.WatchList → w < s.next
  path : ∀ w watch, s.Watches w = some watch → watch.Path.length < 3072
  signalled : s.captured = false → ∀ w ∈ s.WatchList, ∀ watch, s.Watches w = some watch →
    watch.Active = false → s.Signalled w = true

/-! ## What a section does to the watches -/

/-- What the backend, the list and the owners see of a section. -/
inductive Watching (s : State ι) (t : ι) (choice : Choice) (pc : Pc) (s' : State ι) : Prop
  /-- Nothing, and the thread goes on with the watch that it works on. -/
  | aside (hmemory : s'.Watches = s.Watches) (hlist : s'.WatchList = s.WatchList)
      (hregistrations : s'.registrations = s.registrations) (howned : s'.Owned = s.Owned)
      (hwatch : (s'.pc t).watch = pc.watch) (hunknown : (s'.pc t).unknown = pc.unknown)
      (hinsert : ∀ w, pc ≠ .insert w) (hinsert' : ∀ w, s'.pc t ≠ .insert w)
  /-- A watch comes to the list, with an id that no watch on it has. -/
  | inserted (w Id : ℕ) (watch : Watch) (hpc : pc = .insert w) (hpc' : s'.pc t = .prepare (.add w))
      (hwatch : s.Watches w = some watch)
      (hId : storeFindWatch s Id = none)
      (hmemory : s'.Watches = Function.update s.Watches w (some { watch with Id := Id, Active := true }))
      (hlist : s'.WatchList = s.WatchList ++ [w]) (hregistrations : s'.registrations = s.registrations)
      (howned : s'.Owned = s.Owned)
  /-- A watch that the backend does not know, or one that is not active, is freed. -/
  | freed (w : ℕ) (hpc : pc.watch = some w) (hinsert : ∀ w, pc ≠ .insert w)
      (hunknown : pc.unknown = some w ∨ pc.unknown = none ∧
        ∃ watch, s.Watches w = some watch ∧ watch.Active = false)
      (hwatch' : (s'.pc t).watch = none) (hmemory : s'.Watches = Function.update s.Watches w none)
      (hlist : s'.WatchList = s.WatchList.erase w) (hregistrations : s'.registrations = s.registrations)
      (howned : s'.Owned = s.Owned)
  /-- A watch that has not been removed goes back to its owner. -/
  | kept (w : ℕ) (hpc : pc.watch = some w) (hunknown : pc.unknown = none)
      (hinsert : ∀ w, pc ≠ .insert w) (hwatch' : (s'.pc t).watch = none)
      (hmemory : s'.Watches = s.Watches) (hlist : s'.WatchList = s.WatchList)
      (hregistrations : s'.registrations = s.registrations)
      (howned : s'.Owned = Function.update s.Owned w true)
  /-- The backend accepts a watch, which goes to its owner. -/
  | accepted (w Id : ℕ) (watch : Watch) (hpc : pc = .wait (.add w))
      (hchoice : choice = .answer .success Id) (hwatch : s.Watches w = some watch)
      (hwatch' : (s'.pc t).watch = none)
      (hmemory : s'.Watches = s.Watches) (hlist : s'.WatchList = s.WatchList)
      (hregistrations : s'.registrations = Function.update s.registrations watch.key true)
      (howned : s'.Owned = Function.update s.Owned w true)
  /-- The backend forgets a watch. -/
  | forgotten (w : ℕ) (watch : Watch) (hpc : pc = .wait (.remove w)) (hpc' : s'.pc t = .drop w)
      (hwatch : s.Watches w = some watch)
      (hmemory : s'.Watches = s.Watches) (hlist : s'.WatchList = s.WatchList)
      (hregistrations : s'.registrations = Function.update s.registrations watch.key false)
      (howned : s'.Owned = s.Owned)

section

variable [DecidableEq ι] {t : ι} {choice : Choice} {pc : Pc}

/-- A section that touches no watch, and goes on with the one it is about. -/
theorem watching_goto {pc' : Pc} (u : State ι) (hmemory : u.Watches = s.Watches)
    (hlist : u.WatchList = s.WatchList) (hregistrations : u.registrations = s.registrations)
    (howned : u.Owned = s.Owned) (hwatch : pc'.watch = pc.watch) (hunknown : pc'.unknown = pc.unknown)
    (hinsert : ∀ w, pc ≠ .insert w) (hinsert' : ∀ w, pc' ≠ .insert w) :
    Watching s t choice pc (u.goto t pc') :=
  .aside hmemory hlist hregistrations howned (by rw [goto_pc, hwatch]) (by rw [goto_pc, hunknown])
    hinsert (by rw [goto_pc]; exact hinsert')

/-- A call that fails, before or after its request has been submitted. -/
theorem failed_watching {op : Op} (status : Status)
    (hpc : (∃ Request, pc = .submit op Request) ∨ pc = .wait op) (u : State ι)
    (hmemory : u.Watches = s.Watches) (hlist : u.WatchList = s.WatchList)
    (hregistrations : u.registrations = s.registrations) (howned : u.Owned = s.Owned) :
    Watching s t choice pc (failed u t status op) := by
  have hwatch : pc.watch = op.watch := by obtain ⟨_, rfl⟩ | rfl := hpc <;> rfl
  have hunknown : pc.unknown = op.adds := by obtain ⟨_, rfl⟩ | rfl := hpc <;> rfl
  have hinsert : ∀ w, pc ≠ .insert w := by obtain ⟨_, rfl⟩ | rfl := hpc <;> simp
  cases op with
  | access | finish =>
    exact watching_goto u hmemory hlist hregistrations howned hwatch.symm hunknown.symm hinsert (by simp)
  | start id =>
    exact watching_goto (u.setTransaction id none) hmemory hlist hregistrations howned hwatch.symm
      hunknown.symm hinsert (by simp)
  | add w =>
    exact watching_goto u hmemory hlist hregistrations howned hwatch.symm hunknown.symm hinsert (by simp)
  | remove w =>
    exact .kept w hwatch hunknown hinsert (by rw [failed, goto_pc]; rfl) hmemory hlist hregistrations
      (by rw [← howned]; rfl)

/-- A call whose request is not prepared. That of `StoreWatchAdd` always is. -/
theorem unprepared_watching {op : Op} (hop : op.adds = none) (u : State ι)
    (hmemory : u.Watches = s.Watches) (hlist : u.WatchList = s.WatchList)
    (hregistrations : u.registrations = s.registrations) (howned : u.Owned = s.Owned) :
    Watching s t choice (.prepare op) (unprepared u t op) := by
  cases op with
  | access | finish =>
    exact watching_goto u hmemory hlist hregistrations howned rfl rfl (by simp) (by simp)
  | start id =>
    exact watching_goto (u.setTransaction id none) hmemory hlist hregistrations howned rfl rfl (by simp)
      (by simp)
  | add w => cases hop
  | remove w =>
    exact .kept w rfl rfl (by simp) (by rw [unprepared, goto_pc]; rfl) hmemory hlist hregistrations
      (by rw [← howned]; rfl)

theorem Access.watching (hacc : Access s t choice pc s') (hpc : s.pc t = pc)
    (hpath : ∀ w watch, s.Watches w = some watch → watch.Path.length < 3072) :
    Watching s t choice pc s' := by
  cases hacc
  case inserted w Id watch hwatch hId =>
    exact .inserted w Id watch rfl (goto_pc ..) hwatch hId rfl rfl rfl rfl
  case gone w watch hwatch hactive =>
    exact .freed w rfl (by simp) (.inr ⟨rfl, watch, hwatch, hactive⟩) (by rw [goto_pc]; rfl) rfl rfl rfl
      rfl
  case undone w status =>
    exact .freed w rfl (by simp) (.inl rfl) (by rw [goto_pc]; rfl) rfl rfl rfl rfl
  case dropped w =>
    exact .freed w rfl (by simp) (.inl rfl) (by rw [goto_pc]; rfl) rfl rfl rfl rfl
  case watched w Id watch hchoice _ hwatch =>
    exact .accepted w Id watch rfl hchoice hwatch (by rw [goto_pc]; rfl) rfl rfl rfl rfl
  case unwatched w watch _ hwatch =>
    exact .forgotten w watch rfl (goto_pc ..) hwatch rfl rfl rfl rfl
  case polled op =>
    exact .aside rfl rfl rfl rfl (congrArg Pc.watch hpc) (congrArg Pc.unknown hpc) (by simp)
      fun w hw => by cases hpc.symm.trans hw
  case unprepared op type RequestId args transaction hrequest hnone =>
    refine unprepared_watching ?_ _ rfl rfl rfl rfl
    cases op with
    | add w =>
      obtain ⟨watch, hwatch, heq⟩ := Option.map_eq_some_iff.mp hrequest
      cases heq
      exact absurd hnone (prepared_of_watch (hpath w watch hwatch) _)
    | _ => rfl
  case noMemory op Request => exact failed_watching _ (.inl ⟨Request, rfl⟩) s rfl rfl rfl rfl
  case failed op status _ => exact failed_watching _ (.inr rfl) _ rfl rfl rfl rfl
  all_goals exact watching_goto _ rfl rfl rfl rfl rfl rfl (by simp) (by simp)

/-! ## The sections keep the invariant -/

omit [DecidableEq ι] in
theorem id_ne_of_storeFindWatch {Id : ℕ} (hId : storeFindWatch s Id = none) {w : ℕ}
    (hw : w ∈ s.WatchList) {watch : Watch} (hwatch : s.Watches w = some watch) : watch.Id ≠ Id := by
  have hno := List.find?_eq_none.mp hId w hw
  simpa [hwatch] using hno

omit [DecidableEq ι] in
/-- The backend knows the watches on the list by different keys. -/
theorem Watched.key_injective (h : Watched s) {w w' : ℕ} (hw : w ∈ s.WatchList) (hw' : w' ∈ s.WatchList)
    {watch watch' : Watch} (hwatch : s.Watches w = some watch) (hwatch' : s.Watches w' = some watch')
    (hkey : watch.key = watch'.key) : w = w' :=
  h.ids w hw w' hw' watch watch' hwatch hwatch' (congrArg Key.Id hkey)

omit [DecidableEq ι] in
/-- A section that leaves the watches and the list as they are. -/
theorem Watched.same (h : Watched s) (hframe : Frame t s s') (hpc : s.pc t = pc)
    (hmemory : s'.Watches = s.Watches) (hlist : s'.WatchList = s.WatchList)
    (hwatch : ∀ w, (s'.pc t).watch = some w → pc.watch = some w) (hinsert : ∀ w, pc ≠ .insert w)
    (hinsert' : ∀ w, s'.pc t ≠ .insert w)
    (settled : ∀ w ∈ s.WatchList, ∀ watch, s.Watches w = some watch →
      (∀ t, (s'.pc t).unknown ≠ some w) → s'.registrations watch.key = watch.Active)
    (unknown : ∀ t w watch, (s'.pc t).unknown = some w → s.Watches w = some watch →
      s'.registrations watch.key = false)
    (owner : ∀ key, s'.registrations key = true →
      ∃ w ∈ s.WatchList, ∃ watch, s.Watches w = some watch ∧ watch.key = key)
    (owned : ∀ w, s'.Owned w = true → w ∈ s.WatchList ∧ ∀ t, (s'.pc t).watch ≠ some w) :
    Watched s' := by
  have hback : ∀ {j : ι} {w : ℕ}, (s'.pc j).watch = some w → (s.pc j).watch = some w := by
    intro j w hj
    by_cases hjt : j = t
    · subst hjt
      rw [hpc]
      exact hwatch w hj
    · rwa [hframe.pc j hjt] at hj
  constructor
  case memory => rw [hlist, hmemory]; exact h.memory
  case nodup => rw [hlist]; exact h.nodup
  case ids => rw [hlist, hmemory]; exact h.ids
  case settled => rw [hlist, hmemory]; exact settled
  case unknown => rw [hmemory]; exact unknown
  case owner => rw [hlist, hmemory]; exact owner
  case listed =>
    intro j w hj
    rw [hlist]
    by_cases hjt : j = t
    · subst hjt
      obtain hin | hmem := h.listed j w (hback hj)
      · exact absurd (hpc.symm.trans hin) (hinsert w)
      · exact .inr hmem
    · rw [hframe.pc j hjt] at hj ⊢
      exact h.listed j w hj
  case inserting =>
    intro j w hj
    rw [hlist]
    by_cases hjt : j = t
    · subst hjt
      exact absurd hj (hinsert' w)
    · rw [hframe.pc j hjt] at hj
      exact h.inserting j w hj
  case owned => rw [hlist]; exact owned
  case apart => exact fun j j' w hj hj' => h.apart j j' w (hback hj) (hback hj')
  case below =>
    intro j w hj
    rw [hframe.next]
    rw [hlist] at hj
    exact h.below j w (hj.imp_left hback)
  case path => rw [hmemory]; exact h.path
  case signalled => rw [hframe.captured, hframe.signalled, hlist, hmemory]; exact h.signalled

omit [DecidableEq ι] in
theorem Watched.unknown_mem (h : Watched s) {j : ι} {w : ℕ} (hj : (s.pc j).unknown = some w) :
    w ∈ s.WatchList := by
  obtain hin | hmem := h.listed j w (Pc.watch_of_unknown hj)
  · rw [hin] at hj
    cases hj
  · exact hmem

omit [DecidableEq ι] in
/-- The watch that the thread works on once it is on the list. -/
theorem Watched.mem (h : Watched s) (hpc : s.pc t = pc) {w : ℕ} (hw : pc.watch = some w)
    (hinsert : ∀ w, pc ≠ .insert w) : w ∈ s.WatchList := by
  obtain hin | hmem := h.listed t w (by rw [hpc, hw])
  · exact absurd (hpc.symm.trans hin) (hinsert w)
  · exact hmem

omit [DecidableEq ι] in
/-- A watch that is freed is one that the backend does not know. -/
theorem Watched.unregistered (h : Watched s) (hpc : s.pc t = pc) {w : ℕ} (hw : pc.watch = some w)
    (hinsert : ∀ w, pc ≠ .insert w) (hunknown : pc.unknown = some w ∨ pc.unknown = none ∧
      ∃ watch, s.Watches w = some watch ∧ watch.Active = false) {watch : Watch}
    (hwatch : s.Watches w = some watch) : s.registrations watch.key = false := by
  obtain hunknown | ⟨hnone, watch', hwatch', hactive⟩ := hunknown
  · exact h.unknown t w watch (by rw [hpc, hunknown]) hwatch
  · obtain rfl := Option.some.inj (hwatch'.symm.trans hwatch)
    rw [h.settled w (h.mem hpc hw hinsert) watch' hwatch, hactive]
    intro j hj
    obtain rfl := h.apart j t w (Pc.watch_of_unknown hj) (by rw [hpc, hw])
    rw [hpc, hnone] at hj
    cases hj

omit [DecidableEq ι] in
/-- A watch is worked on by one thread. -/
theorem Watched.alone (h : Watched s) (hpc : s.pc t = pc) {w : ℕ} (hw : pc.watch = some w) {j : ι}
    (hj : (s.pc j).watch = some w) : j = t :=
  h.apart j t w hj (by rw [hpc, hw])

omit [DecidableEq ι] in
theorem ne_of_left (hwatch : (s.pc t).watch = none) {j : ι} {w : ℕ} (hj : (s.pc j).watch = some w) :
    j ≠ t := by
  rintro rfl
  rw [hwatch] at hj
  cases hj

omit [DecidableEq ι] in
/-- A thread gives the watch that it works on to its owner. -/
theorem Watched.given (h : Watched s) (hframe : Frame t s s') (hpc : s.pc t = pc) {w : ℕ}
    (hw : pc.watch = some w) (hinsert : ∀ w, pc ≠ .insert w) (hwatch' : (s'.pc t).watch = none)
    (howned : s'.Owned = Function.update s.Owned w true) (v : ℕ) (hv : s'.Owned v = true) :
    v ∈ s.WatchList ∧ ∀ j, (s'.pc j).watch ≠ some v := by
  by_cases hvw : v = w
  · subst hvw
    refine ⟨h.mem hpc hw hinsert, fun j hj => ?_⟩
    have hjt := ne_of_left hwatch' hj
    rw [hframe.pc j hjt] at hj
    exact hjt (h.alone hpc hw hj)
  · rw [howned, Function.update_of_ne hvw] at hv
    obtain ⟨hmem, hnone⟩ := h.owned v hv
    exact ⟨hmem, fun j hj => hnone j (hframe.pc j (ne_of_left hwatch' hj) ▸ hj)⟩

theorem Watched.aside (h : Watched s) (hframe : Frame t s s') (hpc : s.pc t = pc)
    (hmemory : s'.Watches = s.Watches) (hlist : s'.WatchList = s.WatchList)
    (hregistrations : s'.registrations = s.registrations) (howned : s'.Owned = s.Owned)
    (hwatch : (s'.pc t).watch = pc.watch) (hunknown : (s'.pc t).unknown = pc.unknown)
    (hinsert : ∀ w, pc ≠ .insert w) (hinsert' : ∀ w, s'.pc t ≠ .insert w) : Watched s' := by
  have hsame : ∀ j, (s'.pc j).unknown = (s.pc j).unknown := fun j => by
    by_cases hjt : j = t
    · rw [hjt, hunknown, hpc]
    · rw [hframe.pc j hjt]
  have hsame' : ∀ j, (s'.pc j).watch = (s.pc j).watch := fun j => by
    by_cases hjt : j = t
    · rw [hjt, hwatch, hpc]
    · rw [hframe.pc j hjt]
  apply h.same hframe hpc hmemory hlist (fun w hw => hwatch ▸ hw) hinsert hinsert'
  · intro w hw watch hwatch hno
    rw [hregistrations]
    exact h.settled w hw watch hwatch fun j => hsame j ▸ hno j
  · intro j w watch hj hwatch
    rw [hregistrations]
    exact h.unknown j w watch (hsame j ▸ hj) hwatch
  · rw [hregistrations]
    exact h.owner
  · intro w hw
    rw [howned] at hw
    obtain ⟨hmem, hnone⟩ := h.owned w hw
    exact ⟨hmem, fun j => by rw [hsame' j]; exact hnone j⟩

theorem Watched.kept (h : Watched s) (hframe : Frame t s s') (hpc : s.pc t = pc) {w : ℕ}
    (hw : pc.watch = some w) (hunknown : pc.unknown = none) (hinsert : ∀ w, pc ≠ .insert w)
    (hwatch' : (s'.pc t).watch = none) (hmemory : s'.Watches = s.Watches)
    (hlist : s'.WatchList = s.WatchList) (hregistrations : s'.registrations = s.registrations)
    (howned : s'.Owned = Function.update s.Owned w true) : Watched s' := by
  apply h.same hframe hpc hmemory hlist (by simp [hwatch']) hinsert
    (fun v hv => by rw [hv] at hwatch'; cases hwatch')
  · intro v hv watch hwatch hno
    rw [hregistrations]
    refine h.settled v hv watch hwatch fun j => ?_
    by_cases hjt : j = t
    · rw [hjt, hpc, hunknown]
      simp
    · exact hframe.pc j hjt ▸ hno j
  · intro j v watch hj hwatch
    rw [hregistrations]
    rw [hframe.pc j (ne_of_left hwatch' (Pc.watch_of_unknown hj))] at hj
    exact h.unknown j v watch hj hwatch
  · rw [hregistrations]
    exact h.owner
  · exact h.given hframe hpc hw hinsert hwatch' howned

/-- The guest must not have been suspended since the watch was put on the list. -/
theorem Watched.accepted (h : Watched s) (hframe : Frame t s s') {w : ℕ} {watch : Watch}
    (hin : s.pc t = .wait (.add w)) (hwatch : s.Watches w = some watch) (hactive : watch.Active = true)
    (hwatch' : (s'.pc t).watch = none) (hmemory : s'.Watches = s.Watches)
    (hlist : s'.WatchList = s.WatchList)
    (hregistrations : s'.registrations = Function.update s.registrations watch.key true)
    (howned : s'.Owned = Function.update s.Owned w true) : Watched s' := by
  have hw : (s.pc t).watch = some w := by rw [hin]; rfl
  have hu : (s.pc t).unknown = some w := by rw [hin]; rfl
  have hinsert : ∀ v, s.pc t ≠ .insert v := by rw [hin]; simp
  have hmem := h.mem rfl hw hinsert
  apply h.same hframe rfl hmemory hlist (by simp [hwatch']) hinsert
    (fun v hv => by rw [hv] at hwatch'; cases hwatch')
  · intro v hv other hother hno
    rw [hregistrations]
    by_cases hvw : v = w
    · subst hvw
      obtain rfl := Option.some.inj (hother.symm.trans hwatch)
      rw [Function.update_self, hactive]
    · rw [Function.update_of_ne fun hkey => hvw (h.key_injective hv hmem hother hwatch hkey)]
      refine h.settled v hv other hother fun j => ?_
      by_cases hjt : j = t
      · rw [hjt, hu]
        exact fun heq => hvw (Option.some.inj heq).symm
      · exact hframe.pc j hjt ▸ hno j
  · intro j v other hj hother
    have hjt := ne_of_left hwatch' (Pc.watch_of_unknown hj)
    rw [hframe.pc j hjt] at hj
    have hvw : v ≠ w := by
      rintro rfl
      exact hjt (h.alone rfl hw (Pc.watch_of_unknown hj))
    rw [hregistrations, Function.update_of_ne fun hkey =>
      hvw (h.key_injective (h.unknown_mem hj) hmem hother hwatch hkey)]
    exact h.unknown j v other hj hother
  · intro key hkey
    by_cases hkw : key = watch.key
    · exact ⟨w, hmem, watch, hwatch, hkw.symm⟩
    · rw [hregistrations, Function.update_of_ne hkw] at hkey
      exact h.owner key hkey
  · exact h.given hframe rfl hw hinsert hwatch' howned

theorem Watched.forgotten (h : Watched s) (hframe : Frame t s s') {w : ℕ} {watch : Watch}
    (hin : s.pc t = .wait (.remove w)) (hin' : s'.pc t = .drop w) (hwatch : s.Watches w = some watch)
    (hmemory : s'.Watches = s.Watches) (hlist : s'.WatchList = s.WatchList)
    (hregistrations : s'.registrations = Function.update s.registrations watch.key false)
    (howned : s'.Owned = s.Owned) : Watched s' := by
  have hw : (s.pc t).watch = some w := by rw [hin]; rfl
  have hw' : (s'.pc t).watch = some w := by rw [hin']; rfl
  have hinsert : ∀ v, s.pc t ≠ .insert v := by rw [hin]; simp
  have hmem := h.mem rfl hw hinsert
  apply h.same hframe rfl hmemory hlist (fun v hv => by rw [hw, ← hw', hv]) hinsert
    (fun v hv => by rw [hv] at hin'; cases hin')
  · intro v hv other hother hno
    have hvw : v ≠ w := by
      rintro rfl
      exact hno t (by rw [hin']; rfl)
    rw [hregistrations,
      Function.update_of_ne fun hkey => hvw (h.key_injective hv hmem hother hwatch hkey)]
    refine h.settled v hv other hother fun j => ?_
    by_cases hjt : j = t
    · rw [hjt, hin]
      simp [Pc.unknown, Op.adds]
    · exact hframe.pc j hjt ▸ hno j
  · intro j v other hj hother
    rw [hregistrations]
    by_cases hjt : j = t
    · rw [hjt, hin'] at hj
      obtain rfl : w = v := Option.some.inj hj
      obtain rfl := Option.some.inj (hother.symm.trans hwatch)
      rw [Function.update_self]
    · rw [hframe.pc j hjt] at hj
      have hvw : v ≠ w := by
        rintro rfl
        exact hjt (h.alone rfl hw (Pc.watch_of_unknown hj))
      rw [Function.update_of_ne fun hkey =>
        hvw (h.key_injective (h.unknown_mem hj) hmem hother hwatch hkey)]
      exact h.unknown j v other hj hother
  · intro key hkey
    rw [hregistrations] at hkey
    by_cases hkw : key = watch.key
    · rw [hkw, Function.update_self] at hkey
      cases hkey
    · rw [Function.update_of_ne hkw] at hkey
      exact h.owner key hkey
  · intro v hv
    rw [howned] at hv
    obtain ⟨hv, hnone⟩ := h.owned v hv
    refine ⟨hv, fun j hj => hnone j ?_⟩
    by_cases hjt : j = t
    · rw [hjt, hw, ← hw', ← hjt, hj]
    · exact hframe.pc j hjt ▸ hj

theorem Watched.inserted (h : Watched s) (hframe : Frame t s s') {w Id : ℕ} {watch : Watch}
    (hin : s.pc t = .insert w) (hin' : s'.pc t = .prepare (.add w)) (hwatch : s.Watches w = some watch)
    (hId : storeFindWatch s Id = none)
    (hmemory : s'.Watches = Function.update s.Watches w (some { watch with Id := Id, Active := true }))
    (hlist : s'.WatchList = s.WatchList ++ [w]) (hregistrations : s'.registrations = s.registrations)
    (howned : s'.Owned = s.Owned) : Watched s' := by
  have hw : (s.pc t).watch = some w := by rw [hin]; rfl
  have hnotin : w ∉ s.WatchList := h.inserting t w hin
  have hold : ∀ {v : ℕ}, v ∈ s.WatchList → s'.Watches v = s.Watches v := fun hv => by
    rw [hmemory, Function.update_of_ne (ne_of_mem_of_not_mem hv hnotin)]
  have hnew : s'.Watches w = some { watch with Id := Id, Active := true } := by
    rw [hmemory, Function.update_self]
  have hmem : ∀ {v : ℕ}, v ∈ s'.WatchList → v ∈ s.WatchList ∨ v = w := fun hv => by
    rwa [hlist, List.mem_append, List.mem_singleton] at hv
  have hmem' : ∀ {v : ℕ}, v ∈ s.WatchList → v ∈ s'.WatchList := fun hv => by
    rw [hlist]
    exact List.mem_append_left _ hv
  have hself' : (s'.pc t).watch = some w := by rw [hin']; rfl
  have hpcs : ∀ {j : ι} {v : ℕ}, (s'.pc j).watch = some v → (s.pc j).watch = some v := by
    intro j v hj
    by_cases hjt : j = t
    · rwa [hjt, hw, ← hself', ← hjt]
    · rwa [← hframe.pc j hjt]
  -- the id is new, so the backend knows nothing by the new key
  have hunregistered : ∀ key : Key, key.Id = Id → s.registrations key = false := by
    intro key hkey
    rw [Bool.eq_false_iff]
    intro hreg
    obtain ⟨v, hv, other, hother, rfl⟩ := h.owner key hreg
    exact id_ne_of_storeFindWatch hId hv hother hkey
  constructor
  case memory =>
    intro v hv
    obtain hv | rfl := hmem hv
    · rw [hold hv]
      exact h.memory v hv
    · rw [hnew]
      simp
  case nodup =>
    rw [hlist]
    exact h.nodup.append (List.nodup_singleton w) (by simpa using hnotin)
  case ids =>
    intro v hv v' hv' one other hone hother hids
    obtain hv | rfl := hmem hv <;> obtain hv' | rfl := hmem hv'
    · rw [hold hv] at hone
      rw [hold hv'] at hother
      exact h.ids v hv v' hv' one other hone hother hids
    · rw [hold hv] at hone
      rw [hnew] at hother
      cases hother
      exact absurd hids (id_ne_of_storeFindWatch hId hv hone)
    · rw [hnew] at hone
      rw [hold hv'] at hother
      cases hone
      exact absurd hids.symm (id_ne_of_storeFindWatch hId hv' hother)
    · rfl
  case settled =>
    intro v hv other hother hno
    obtain hv | rfl := hmem hv
    · rw [hold hv] at hother
      rw [hregistrations]
      refine h.settled v hv other hother fun j => ?_
      by_cases hjt : j = t
      · rw [hjt, hin]
        simp [Pc.unknown]
      · exact hframe.pc j hjt ▸ hno j
    · exact absurd (by rw [hin']; rfl) (hno t)
  case unknown =>
    intro j v other hj hother
    rw [hregistrations]
    by_cases hjt : j = t
    · rw [hjt, hin'] at hj
      obtain rfl : w = v := Option.some.inj hj
      rw [hnew] at hother
      cases hother
      exact hunregistered _ rfl
    · rw [hframe.pc j hjt] at hj
      rw [hold (h.unknown_mem hj)] at hother
      exact h.unknown j v other hj hother
  case owner =>
    intro key hkey
    rw [hregistrations] at hkey
    obtain ⟨v, hv, other, hother, rfl⟩ := h.owner key hkey
    exact ⟨v, hmem' hv, other, (hold hv).trans hother, rfl⟩
  case listed =>
    intro j v hj
    by_cases hjt : j = t
    · rw [hjt, hself'] at hj
      obtain rfl := Option.some.inj hj
      right
      simp [hlist]
    · rw [hframe.pc j hjt] at hj ⊢
      exact (h.listed j v hj).imp_right hmem'
  case inserting =>
    intro j v hj
    by_cases hjt : j = t
    · rw [hjt, hin'] at hj
      cases hj
    · rw [hframe.pc j hjt] at hj
      intro hv
      obtain hv | rfl := hmem hv
      · exact h.inserting j v hj hv
      · exact hjt (h.alone rfl hw (by rw [hj]; rfl))
  case owned =>
    intro v hv
    rw [howned] at hv
    obtain ⟨hv, hnone⟩ := h.owned v hv
    exact ⟨hmem' hv, fun j hj => hnone j (hpcs hj)⟩
  case apart => exact fun j j' v hj hj' => h.apart j j' v (hpcs hj) (hpcs hj')
  case below =>
    intro j v hv
    rw [hframe.next]
    obtain hj | hv := hv
    · exact h.below j v (.inl (hpcs hj))
    · obtain hv | rfl := hmem hv
      · exact h.below j v (.inr hv)
      · exact h.below t v (.inl hw)
  case path =>
    intro v other hother
    by_cases hvw : v = w
    · subst hvw
      rw [hnew] at hother
      cases hother
      exact h.path v watch hwatch
    · rw [hmemory, Function.update_of_ne hvw] at hother
      exact h.path v other hother
  case signalled =>
    rw [hframe.captured, hframe.signalled]
    intro hcaptured v hv other hother hactive
    obtain hv | rfl := hmem hv
    · exact h.signalled hcaptured v hv other (hold hv ▸ hother) hactive
    · rw [hnew] at hother
      cases hother
      cases hactive

theorem Watched.freed (h : Watched s) (hframe : Frame t s s') (hpc : s.pc t = pc) {w : ℕ}
    (hw : pc.watch = some w) (hinsert : ∀ w, pc ≠ .insert w)
    (hunknown : pc.unknown = some w ∨ pc.unknown = none ∧
      ∃ watch, s.Watches w = some watch ∧ watch.Active = false)
    (hwatch' : (s'.pc t).watch = none) (hmemory : s'.Watches = Function.update s.Watches w none)
    (hlist : s'.WatchList = s.WatchList.erase w) (hregistrations : s'.registrations = s.registrations)
    (howned : s'.Owned = s.Owned) : Watched s' := by
  have hin := h.mem hpc hw hinsert
  have hmem : ∀ {v : ℕ}, v ∈ s'.WatchList → v ∈ s.WatchList ∧ v ≠ w := fun hv => by
    rw [hlist, h.nodup.mem_erase_iff] at hv
    exact hv.symm
  have hmem' : ∀ {v : ℕ}, v ∈ s.WatchList → v ≠ w → v ∈ s'.WatchList := fun hv hvw => by
    rw [hlist, h.nodup.mem_erase_iff]
    exact ⟨hvw, hv⟩
  have hold : ∀ {v : ℕ}, v ≠ w → s'.Watches v = s.Watches v := fun hvw => by
    rw [hmemory, Function.update_of_ne hvw]
  have hpcs : ∀ {j : ι} {v : ℕ}, (s'.pc j).watch = some v → (s.pc j).watch = some v ∧ v ≠ w := by
    intro j v hj
    have hjt := ne_of_left hwatch' hj
    rw [hframe.pc j hjt] at hj
    refine ⟨hj, ?_⟩
    rintro rfl
    exact hjt (h.alone hpc hw hj)
  constructor
  case memory =>
    intro v hv
    rw [hold (hmem hv).2]
    exact h.memory v (hmem hv).1
  case nodup =>
    rw [hlist]
    exact h.nodup.erase w
  case ids =>
    intro v hv v' hv' one other hone hother
    rw [hold (hmem hv).2] at hone
    rw [hold (hmem hv').2] at hother
    exact h.ids v (hmem hv).1 v' (hmem hv').1 one other hone hother
  case settled =>
    intro v hv other hother hno
    obtain ⟨hv, hvw⟩ := hmem hv
    rw [hold hvw] at hother
    rw [hregistrations]
    refine h.settled v hv other hother fun j hj => ?_
    by_cases hjt : j = t
    · subst hjt
      exact hvw (Option.some.inj
        ((Pc.watch_of_unknown hj).symm.trans (by rw [hpc, hw])))
    · exact hno j (by rwa [hframe.pc j hjt])
  case unknown =>
    intro j v other hj hother
    have hvw := (hpcs (Pc.watch_of_unknown hj)).2
    rw [hframe.pc j (ne_of_left hwatch' (Pc.watch_of_unknown hj))] at hj
    rw [hold hvw] at hother
    rw [hregistrations]
    exact h.unknown j v other hj hother
  case owner =>
    intro key hkey
    rw [hregistrations] at hkey
    obtain ⟨v, hv, other, hother, rfl⟩ := h.owner key hkey
    have hvw : v ≠ w := by
      rintro rfl
      rw [h.unregistered hpc hw hinsert hunknown hother] at hkey
      cases hkey
    exact ⟨v, hmem' hv hvw, other, (hold hvw).trans hother, rfl⟩
  case listed =>
    intro j v hj
    obtain ⟨hj', hvw⟩ := hpcs hj
    rw [hframe.pc j (ne_of_left hwatch' hj)]
    exact (h.listed j v hj').imp_right fun hv => hmem' hv hvw
  case inserting =>
    intro j v hj hv
    rw [hframe.pc j (ne_of_left hwatch' (w := v) (by rw [hj]; rfl))] at hj
    exact h.inserting j v hj (hmem hv).1
  case owned =>
    intro v hv
    rw [howned] at hv
    obtain ⟨hv, hnone⟩ := h.owned v hv
    have hvw : v ≠ w := by
      rintro rfl
      exact hnone t (by rw [hpc, hw])
    exact ⟨hmem' hv hvw, fun j hj => hnone j (hpcs hj).1⟩
  case apart => exact fun j j' v hj hj' => h.apart j j' v (hpcs hj).1 (hpcs hj').1
  case below =>
    intro j v hv
    rw [hframe.next]
    exact h.below j v (hv.imp (fun hj => (hpcs hj).1) fun hv => (hmem hv).1)
  case path =>
    intro v other hother
    by_cases hvw : v = w
    · rw [hmemory, hvw, Function.update_self] at hother
      cases hother
    · exact h.path v other (hold hvw ▸ hother)
  case signalled =>
    rw [hframe.captured, hframe.signalled]
    intro hcaptured v hv other hother hactive
    obtain ⟨hv, hvw⟩ := hmem hv
    exact h.signalled hcaptured v hv other (hold hvw ▸ hother) hactive

theorem Watched.access (h : Watched s) (hacc : Access s t choice pc s') (hpc : s.pc t = pc)
    (htimely : ∀ w Id watch, pc = .wait (.add w) → choice = .answer .success Id →
      s.Watches w = some watch → watch.Active = true) : Watched s' := by
  have hframe := hacc.frame
  cases hacc.watching hpc h.path with
  | aside hmemory hlist hregistrations howned hwatch hunknown hinsert hinsert' =>
    exact h.aside hframe hpc hmemory hlist hregistrations howned hwatch hunknown hinsert hinsert'
  | inserted w Id watch hin hin' hwatch hId hmemory hlist hregistrations howned =>
    exact h.inserted hframe (hpc.trans hin) hin' hwatch hId hmemory hlist hregistrations howned
  | freed w hw hinsert hunknown hwatch' hmemory hlist hregistrations howned =>
    exact h.freed hframe hpc hw hinsert hunknown hwatch' hmemory hlist hregistrations howned
  | kept w hw hunknown hinsert hwatch' hmemory hlist hregistrations howned =>
    exact h.kept hframe hpc hw hunknown hinsert hwatch' hmemory hlist hregistrations howned
  | accepted w Id watch hin hchoice hwatch hwatch' hmemory hlist hregistrations howned =>
    exact h.accepted hframe (hpc.trans hin) hwatch (htimely w Id watch hin hchoice hwatch) hwatch'
      hmemory hlist hregistrations howned
  | forgotten w watch hin hin' hwatch hmemory hlist hregistrations howned =>
    exact h.forgotten hframe (hpc.trans hin) hin' hwatch hmemory hlist hregistrations howned

/-! ## The calls and the suspend keep the invariant -/

omit [DecidableEq ι] in
theorem Pc.watch_of_not_busy {pc : Pc} (h : pc.busy = false) : pc.watch = none := by
  cases pc <;> first | rfl | cases h

omit [DecidableEq ι] in
/-- A thread enters a call: it works on a watch that is new, or on one that it takes from its owner. -/
theorem Watched.enter (h : Watched s) (hidle : (s.pc t).watch = none)
    (hne : ∀ j, j ≠ t → s'.pc j = s.pc j) (hnext : s.next ≤ s'.next)
    (hold : ∀ w < s.next, s'.Watches w = s.Watches w) (hlist : s'.WatchList = s.WatchList)
    (hregistrations : s'.registrations = s.registrations) (hcaptured : s'.captured = s.captured)
    (hsignalled : s'.Signalled = s.Signalled) (hunknown : (s'.pc t).unknown = none)
    (hwatch : ∀ w, (s'.pc t).watch = some w →
      (s'.pc t = .insert w ∧ s.next ≤ w ∧ w < s'.next) ∨ (s.Owned w = true ∧ s'.Owned w = false))
    (hinsert : ∀ w, s'.pc t = .insert w → s.next ≤ w)
    (howned : ∀ w, s'.Owned w = true → s.Owned w = true)
    (hpath : ∀ w watch, s'.Watches w = some watch → watch.Path.length < 3072) : Watched s' := by
  have hmem : ∀ {w : ℕ}, w ∈ s.WatchList → s'.Watches w = s.Watches w := fun hw =>
    hold _ (h.below t _ (.inr hw))
  have hsame : ∀ j, (s'.pc j).unknown = (s.pc j).unknown := fun j => by
    by_cases hjt : j = t
    · subst hjt
      rw [hunknown]
      refine (Option.eq_none_iff_forall_ne_some.mpr fun w hw => ?_).symm
      rw [Pc.watch_of_unknown hw] at hidle
      cases hidle
    · rw [hne j hjt]
  -- no thread works on a watch that is new or owned
  have hother : ∀ {j : ι} {w : ℕ}, (s'.pc t).watch = some w → (s.pc j).watch ≠ some w := by
    intro j w hw hj
    obtain ⟨-, hge, -⟩ | ⟨hw, -⟩ := hwatch w hw
    · exact absurd (h.below j w (.inl hj)) (by omega)
    · exact (h.owned w hw).2 j hj
  constructor
  case memory =>
    rw [hlist]
    intro w hw
    rw [hmem hw]
    exact h.memory w hw
  case nodup => rw [hlist]; exact h.nodup
  case ids =>
    rw [hlist]
    intro w hw w' hw' watch watch' hone htwo
    rw [hmem hw] at hone
    rw [hmem hw'] at htwo
    exact h.ids w hw w' hw' watch watch' hone htwo
  case settled =>
    rw [hlist, hregistrations]
    intro w hw watch hone hno
    exact h.settled w hw watch (hmem hw ▸ hone) fun j => hsame j ▸ hno j
  case unknown =>
    rw [hregistrations]
    intro j w watch hj hone
    rw [hsame j] at hj
    exact h.unknown j w watch hj (hmem (h.unknown_mem hj) ▸ hone)
  case owner =>
    rw [hlist, hregistrations]
    intro key hkey
    obtain ⟨w, hw, watch, hone, rfl⟩ := h.owner key hkey
    exact ⟨w, hw, watch, (hmem hw).trans hone, rfl⟩
  case listed =>
    rw [hlist]
    intro j w hj
    by_cases hjt : j = t
    · subst hjt
      exact (hwatch w hj).imp And.left fun ⟨hw, _⟩ => (h.owned w hw).1
    · rw [hne j hjt] at hj ⊢
      exact h.listed j w hj
  case inserting =>
    rw [hlist]
    intro j w hj hw
    by_cases hjt : j = t
    · subst hjt
      exact absurd (h.below j w (.inr hw)) (by have := hinsert w hj; omega)
    · rw [hne j hjt] at hj
      exact h.inserting j w hj hw
  case owned =>
    rw [hlist]
    intro w hw
    obtain ⟨hmem, hnone⟩ := h.owned w (howned w hw)
    refine ⟨hmem, fun j hj => ?_⟩
    by_cases hjt : j = t
    · subst hjt
      obtain ⟨-, hge, -⟩ | ⟨-, hgone⟩ := hwatch w hj
      · exact absurd (h.below j w (.inr hmem)) (by omega)
      · rw [hw] at hgone
        cases hgone
    · rw [hne j hjt] at hj
      exact hnone j hj
  case apart =>
    intro j j' w hj hj'
    by_cases hjt : j = t <;> by_cases hjt' : j' = t
    · rw [hjt, hjt']
    · rw [hjt] at hj
      rw [hne j' hjt'] at hj'
      exact absurd hj' (hother hj)
    · rw [hjt'] at hj'
      rw [hne j hjt] at hj
      exact absurd hj (hother hj')
    · rw [hne j hjt] at hj
      rw [hne j' hjt'] at hj'
      exact h.apart j j' w hj hj'
  case below =>
    rw [hlist]
    intro j w hw
    obtain hj | hw := hw
    · by_cases hjt : j = t
      · subst hjt
        obtain ⟨-, -, hlt⟩ | ⟨hw, -⟩ := hwatch w hj
        · exact hlt
        · exact (h.below j w (.inr (h.owned w hw).1)).trans_le hnext
      · rw [hne j hjt] at hj
        exact (h.below j w (.inl hj)).trans_le hnext
    · exact (h.below t w (.inr hw)).trans_le hnext
  case path => exact hpath
  case signalled =>
    rw [hcaptured, hsignalled, hlist]
    intro hcaptured w hw watch hone hactive
    exact h.signalled hcaptured w hw watch (hmem hw ▸ hone) hactive

theorem Watched.call (h : Watched s) (hbusy : (s.pc t).busy = false) {call : Call}
    (hs : callStep s t call = some s') : Watched s' := by
  have hidle := Pc.watch_of_not_busy hbusy
  have hne : ∀ (u : State ι) (pc : Pc), u.pc = s.pc → ∀ j, j ≠ t → (u.goto t pc).pc j = s.pc j :=
    fun u pc hu j hj => by rw [← hu]; exact Function.update_of_ne hj _ _
  cases call with
  | access type args Transaction =>
    obtain rfl := Option.some.inj hs
    exact h.enter hidle (hne s _ rfl) le_rfl (fun _ _ => rfl) rfl rfl rfl rfl (by rw [goto_pc]; rfl)
      (by simp [goto_pc, Pc.watch, Op.watch]) (by simp [goto_pc]) (fun _ => id) h.path
  | start =>
    obtain rfl := Option.some.inj hs
    exact h.enter hidle (hne _ _ rfl) (Nat.le_succ _) (fun _ _ => rfl) rfl rfl rfl rfl
      (by rw [goto_pc]; rfl) (by simp [goto_pc, Pc.watch, Op.watch]) (by simp [goto_pc]) (fun _ => id)
      h.path
  | finish id Commit =>
    obtain rfl := Option.some.inj hs
    exact h.enter hidle (hne s _ rfl) le_rfl (fun _ _ => rfl) rfl rfl rfl rfl (by rw [goto_pc]; rfl)
      (by simp [goto_pc, Pc.watch, Op.watch]) (by simp [goto_pc]) (fun _ h => h) h.path
  | add Caller Path =>
    simp only [callStep] at hs
    split_ifs at hs with hlength
    obtain rfl := Option.some.inj hs
    refine h.enter hidle (hne _ _ rfl) (Nat.le_succ _) (fun w hw => ?_) rfl rfl rfl rfl
      (by rw [goto_pc]; rfl) (fun w hw => ?_) (fun w hw => ?_) (fun _ => id) fun w watch hwatch => ?_
    · exact Function.update_of_ne hw.ne _ _
    · rw [goto_pc] at hw
      obtain rfl := Option.some.inj hw
      exact .inl ⟨goto_pc .., le_rfl, Nat.lt_succ_self _⟩
    · rw [goto_pc] at hw
      cases hw
      exact le_rfl
    · by_cases hw : w = s.next
      · subst hw
        change Function.update s.Watches s.next _ s.next = _ at hwatch
        rw [Function.update_self] at hwatch
        cases hwatch
        exact hlength
      · change Function.update s.Watches s.next _ w = _ at hwatch
        rw [Function.update_of_ne hw] at hwatch
        exact h.path w watch hwatch
  | remove w =>
    simp only [callStep] at hs
    split_ifs at hs with howned
    obtain rfl := Option.some.inj hs
    refine h.enter hidle (hne _ _ rfl) le_rfl (fun _ _ => rfl) rfl rfl rfl rfl
      (by rw [goto_pc]; rfl) (fun v hv => ?_) (by simp [goto_pc]) (fun v hv => ?_) h.path
    · rw [goto_pc] at hv
      obtain rfl : w = v := Option.some.inj hv
      exact .inr ⟨howned, Function.update_self ..⟩
    · by_cases hvw : v = w
      · rwa [hvw]
      · exact (Function.update_of_ne hvw _ _).symm.trans hv

omit [DecidableEq ι] in
/-- The early callback clears `Active` as the backend forgets the watches. -/
theorem Watched.early (h : Watched s) : Watched (suspendEarly s) := by
  have hmem : ∀ {w : ℕ}, w ∈ s.WatchList →
      (suspendEarly s).Watches w = (s.Watches w).map ({ · with Active := false }) := fun hw => if_pos hw
  have hback : ∀ {w : ℕ} {watch : Watch}, (suspendEarly s).Watches w = some watch →
      ∃ old, s.Watches w = some old ∧ watch.Path = old.Path ∧ watch.Id = old.Id := by
    intro w watch hwatch
    change deactivate _ _ _ w = _ at hwatch
    unfold deactivate at hwatch
    split_ifs at hwatch
    · obtain ⟨old, hold, rfl⟩ := Option.map_eq_some_iff.mp hwatch
      exact ⟨old, hold, rfl, rfl⟩
    · exact ⟨watch, hwatch, rfl, rfl⟩
  constructor
  case memory =>
    intro w hw hnone
    rw [hmem hw, Option.map_eq_none_iff] at hnone
    exact h.memory w hw hnone
  case nodup => exact h.nodup
  case ids =>
    intro w hw w' hw' watch watch' hone htwo hids
    obtain ⟨old, hold, -, hid⟩ := hback hone
    obtain ⟨old', hold', -, hid'⟩ := hback htwo
    exact h.ids w hw w' hw' old old' hold hold' (by rw [← hid, hids, hid'])
  case settled =>
    intro w hw watch hone _
    rw [hmem hw] at hone
    obtain ⟨old, -, rfl⟩ := Option.map_eq_some_iff.mp hone
    rfl
  case unknown => exact fun _ _ _ _ _ => rfl
  case owner => exact fun _ hkey => by cases hkey
  case listed => exact h.listed
  case inserting => exact h.inserting
  case owned => exact h.owned
  case apart => exact h.apart
  case below => exact h.below
  case path =>
    intro w watch hone
    obtain ⟨old, hold, hpath, -⟩ := hback hone
    rw [hpath]
    exact h.path w old hold
  case signalled => exact fun hcaptured => by cases hcaptured

omit [DecidableEq ι] in
theorem Watched.late (h : Watched s) : Watched (suspendLate s) :=
  { h with
    signalled := fun _ w hw _ _ _ => by
      change w ∈ s.WatchList at hw
      change (s.Signalled w || decide (w ∈ s.WatchList)) = true
      rw [decide_eq_true hw, Bool.or_true] }

/-- The backend accepts no watch that a suspend has made inactive since it came to the list. -/
def Undisturbed (s : State ι) : Action ι → Prop
  | .run t (.answer .success _) =>
    ∀ w watch, s.pc t = .wait (.add w) → s.Watches w = some watch → watch.Active = true
  | _ => True

omit [DecidableEq ι] in
theorem watched_init (RequestId WatchId : ℕ) : Watched (init RequestId WatchId : State ι) where
  memory _ hw := by cases hw
  nodup := List.nodup_nil
  ids _ hw := by cases hw
  settled _ hw := by cases hw
  unknown _ _ _ hj := by cases hj
  owner _ hkey := by cases hkey
  listed _ _ hj := by cases hj
  inserting _ _ hj := by cases hj
  owned _ hw := by cases hw
  apart _ _ _ hj := by cases hj
  below _ _ hw := by obtain hw | hw := hw <;> cases hw
  path _ _ hwatch := by cases hwatch
  signalled _ _ hw := by cases hw

theorem Watched.step {a : Action ι} (h : Watched s) (hG : Undisturbed s a)
    (hs : step s a = some s') : Watched s' := by
  cases a with
  | call t call =>
    simp only [Operations.step] at hs
    split_ifs at hs with hfree
    simp only [not_or, Bool.not_eq_true] at hfree
    exact h.call hfree.2 hs
  | run t choice =>
    simp only [Operations.step] at hs
    split_ifs at hs
    refine h.access (runStep_cases hs) rfl fun w Id watch hpc hchoice hwatch => ?_
    subst hchoice
    exact hG w watch hpc hwatch
  | poll =>
    simp only [Operations.step] at hs
    split_ifs at hs
    obtain rfl := Option.some.inj hs
    exact { h with }
  | early =>
    simp only [Operations.step] at hs
    split_ifs at hs
    obtain rfl := Option.some.inj hs
    exact h.early
  | late =>
    simp only [Operations.step] at hs
    split_ifs at hs
    obtain rfl := Option.some.inj hs
    exact h.late

/-! ## The result -/

/-- The guest and the backend agree on the watches. -/
def Agreed (s : State ι) : Prop :=
  (∀ w ∈ s.WatchList, ∃ watch, s.Watches w = some watch ∧
    s.registrations watch.key = watch.Active ∧ (watch.Active = false → s.Signalled w = true)) ∧
  ∀ key, s.registrations key = true →
    ∃ w ∈ s.WatchList, ∃ watch, s.Watches w = some watch ∧ watch.key = key

/-- No call is in progress, and no suspend. -/
def Quiet (s : State ι) : Prop := (∀ t, (s.pc t).busy = false) ∧ s.captured = false

/-- **The guest and the backend agree on the watches** whenever no call is in progress: in every run in
which the backend accepts no watch that a suspend has made inactive, a watch on the list is active if and
only if the backend has it, the backend has no others, and the event of every watch that is not active
has been signalled. -/
theorem watches_agree {RequestId WatchId : ℕ}
    (h : Reaches Operations.step Undisturbed (init RequestId WatchId : State ι) s) (hquiet : Quiet s) :
    Agreed s := by
  have hwatched : Watched s := h.invariant (watched_init RequestId WatchId) fun _ _ _ h hG hs => h.step hG hs
  refine ⟨fun w hw => ?_, hwatched.owner⟩
  obtain ⟨watch, hwatch⟩ := Option.ne_none_iff_exists'.mp (hwatched.memory w hw)
  refine ⟨watch, hwatch, hwatched.settled w hw watch hwatch fun t ht => ?_,
    hwatched.signalled hquiet.2 w hw watch hwatch⟩
  have hnone := Pc.watch_of_not_busy (hquiet.1 t)
  rw [Pc.watch_of_unknown ht] at hnone
  cases hnone

end

/-! ## Runs -/

/-- A thread calls `StoreWatchAdd`, as far as its watch comes to the list. -/
def adding : List (Action Unit) := [.call () (.add 5 [47]), .run () .submit]

/-- The request for the watch is prepared, put on the ring, and answered. -/
def asking : List (Action Unit) :=
  [.run () .submit, .run () .submit, .run () .poll, .run () (.answer .success 0)]

/-- A test for `Undisturbed`, with one thread. -/
def undisturbed (s : State Unit) : Action Unit → Bool
  | .run () (.answer .success _) =>
    match s.pc () with
    | .wait (.add w) => (s.Watches w).all Watch.Active
    | _ => true
  | _ => true

theorem undisturbed_of_undisturbed {s : State Unit} {a : Action Unit} (h : undisturbed s a = true) :
    Undisturbed s a := by
  unfold undisturbed at h
  split at h
  · intro w watch hpc hwatch
    change s.pc () = _ at hpc
    rw [hpc] at h
    change (s.Watches w).all Watch.Active = true at h
    rwa [hwatch] at h
  next hno =>
    unfold Undisturbed
    split
    next Id => exact absurd rfl (hno Id)
    · trivial

/-- A watch is added, and the guest suspended. -/
theorem watches_agree_run : ∃ s : State Unit, Reaches Operations.step Undisturbed (init 65535 65535) s ∧
    s.WatchList = [0] ∧ s.epoch = 1 ∧ Agreed s := by
  obtain ⟨s, hs, hlist, hepoch, hpc, hcaptured⟩ : ∃ s : State Unit,
      guardedRun Operations.step (fun s a => undisturbed s a = true) (init 65535 65535)
        (adding ++ asking ++ [.early, .late]) = some s ∧
      s.WatchList = [0] ∧ s.epoch = 1 ∧ (s.pc ()).busy = false ∧ s.captured = false :=
    ⟨_, rfl, rfl, rfl, rfl, rfl⟩
  have h := (reaches_of_guardedRun hs).mono fun _ _ => undisturbed_of_undisturbed
  exact ⟨s, h, hlist, hepoch, watches_agree h ⟨fun () => hpc, hcaptured⟩⟩

/-- **The backend has a watch that is not active**: the guest is suspended after the watch has come to the
list and before its request is prepared. When the owner removes the watch, the backend keeps it. -/
theorem watches_disagree :
    (∃ s : State Unit, Reaches Operations.step Free (init 0 0) s ∧ Quiet s ∧ s.WatchList = [0] ∧
      ¬ Agreed s) ∧
    ∃ s : State Unit, Reaches Operations.step Free (init 0 0) s ∧ Quiet s ∧ s.WatchList = [] ∧
      ¬ Agreed s := by
  constructor
  · obtain ⟨s, hs, hlist, hpc, hcaptured, watch, hwatch, hactive, hkey⟩ : ∃ s : State Unit,
        run Operations.step (init 0 0) (adding ++ [.early, .late] ++ asking) = some s ∧ s.WatchList = [0] ∧
        (s.pc ()).busy = false ∧ s.captured = false ∧ ∃ watch, s.Watches 0 = some watch ∧
          watch.Active = false ∧ s.registrations watch.key = true :=
      ⟨_, rfl, rfl, rfl, rfl, _, rfl, rfl, rfl⟩
    refine ⟨s, reaches_of_run hs, ⟨fun () => hpc, hcaptured⟩, hlist, fun hagreed => ?_⟩
    obtain ⟨watch', hwatch', heq, -⟩ := hagreed.1 0 (by rw [hlist]; exact List.mem_singleton_self 0)
    obtain rfl := Option.some.inj (hwatch'.symm.trans hwatch)
    rw [hkey, hactive] at heq
    cases heq
  · obtain ⟨s, hs, hlist, hpc, hcaptured, hkey⟩ : ∃ s : State Unit,
        run Operations.step (init 0 0) (adding ++ [.early, .late] ++ asking ++
          [.call () (.remove 0), .run () .submit]) = some s ∧ s.WatchList = [] ∧
        (s.pc ()).busy = false ∧ s.captured = false ∧ s.registrations ⟨[47], 5, 0⟩ = true :=
      ⟨_, rfl, rfl, rfl, rfl, rfl⟩
    refine ⟨s, reaches_of_run hs, ⟨fun () => hpc, hcaptured⟩, hlist, fun hagreed => ?_⟩
    obtain ⟨w, hw, -⟩ := hagreed.2 _ hkey
    rw [hlist] at hw
    cases hw

end XenBus.Store.Operations
