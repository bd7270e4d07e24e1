import XenBus.Evtchn.Fifo
import XenBus.Status
import Mathlib.Data.Finset.Insert
import Mathlib.Data.Finset.Union
import Mathlib.Order.Lattice.Nat

/-!
# The event array

The pages of event words, as the FIFO ABI has them (`Context->EventPageMdl` of `evtchn_fifo.c`) and as the
hypervisor has them. `EventChannelExpandArray` adds a page at the end of the hypervisor's array, and nothing
but a reset takes one out of it: `EvtchnFifoAcquire` starts from an array without pages.

An expansion that fails after it has registered a page frees that page, and the hypervisor still writes to
it. `kept_iff_clean` says that this is the only thing that goes wrong.
-/

namespace XenBus.Evtchn.EventArray

open Fifo Transition Bitmap

/-- `EVENT_WORDS_PER_PAGE`. -/
abbrev EVENT_WORDS_PER_PAGE : ℕ := 1024

/-- The pages on both sides. A page is its frame number. -/
structure State where
  /-- `Context->EventPageMdl`, of which `Context->EventPageCount` is the length. -/
  EventPageMdl : List ℕ
  /-- The hypervisor's array, in the order in which the pages were registered. -/
  registered : List ℕ
  /-- The pages that are allocated. -/
  held : Finset ℕ
  /-- The event words of each page. -/
  words : ℕ → ℕ → ULONG

/-- What the functions that `EvtchnFifoExpand` calls return during one call. -/
structure Answers where
  /-- Whether the array of MDLs can be allocated. -/
  array : Bool
  /-- Whether the page for a position can be allocated. -/
  allocatePage : ℕ → Bool
  /-- The page for a position: none that is in use. -/
  page : ℕ → (held : Finset ℕ) → {Pfn : ℕ // Pfn ∉ held}
  /-- What `EventChannelExpandArray` returns for the page at a position. -/
  expandArray : ℕ → Status

namespace State

/-- `__AllocatePage`, and the loop that masks the event words. -/
def allocatePage (s : State) (Pfn : ℕ) : State :=
  { s with
    held := insert Pfn s.held
    words := fun Page Port =>
      if Page = Pfn ∧ Port < EVENT_WORDS_PER_PAGE then setBit (s.words Page Port) MASKED
      else s.words Page Port }

/-- `__FreePage`. -/
def freePage (s : State) (Pfn : ℕ) : State := { s with held := s.held.erase Pfn }

/-- The hypervisor's side of `EventChannelExpandArray`. -/
def expandArray (s : State) (Pfn : ℕ) : State := { s with registered := s.registered ++ [Pfn] }

/-- `EvtchnFifoEventWord`. -/
def eventWord (s : State) (Port : ℕ) : Option ULONG :=
  s.EventPageMdl[Port / EVENT_WORDS_PER_PAGE]?.map fun Page =>
    s.words Page (Port - Port / EVENT_WORDS_PER_PAGE * EVENT_WORDS_PER_PAGE)

/-- The word that the hypervisor writes for a port. -/
def hypervisorWord (s : State) (Port : ℕ) : Option ULONG :=
  s.registered[Port / EVENT_WORDS_PER_PAGE]?.map fun Page =>
    s.words Page (Port - Port / EVENT_WORDS_PER_PAGE * EVENT_WORDS_PER_PAGE)

end State

/-! ## Expansion -/

/-- The loop of `EvtchnFifoExpand` over the next pages: what it returns, the new array so far, and the state.
At `fail3` the page that was not registered is freed. -/
def addPages (answers : Answers) : ℕ → List ℕ → State → Status × List ℕ × State
  | 0, EventPageMdl, s => (.success, EventPageMdl, s)
  | n + 1, EventPageMdl, s =>
    if answers.allocatePage EventPageMdl.length then
      let Pfn := (answers.page EventPageMdl.length s.held).val
      let status := answers.expandArray EventPageMdl.length
      if status.ntSuccess then
        addPages answers n (EventPageMdl ++ [Pfn]) ((s.allocatePage Pfn).expandArray Pfn)
      else (status, EventPageMdl, (s.allocatePage Pfn).freePage Pfn)
    else (.noMemory, EventPageMdl, s)

/-- `EvtchnFifoExpand`. At `fail2` the pages of the new array beyond the old one are freed, the last one
first. -/
def evtchnFifoExpand (answers : Answers) (Port : ℕ) (s : State) : Status × State :=
  let EventPageCount := Port / EVENT_WORDS_PER_PAGE + 1
  if answers.array then
    match addPages answers (EventPageCount - s.EventPageMdl.length) s.EventPageMdl s with
    | (status, EventPageMdl, t) =>
      if status.ntSuccess then (.success, { t with EventPageMdl := EventPageMdl })
      else (status, (EventPageMdl.drop s.EventPageMdl.length).reverse.foldl State.freePage t)
  else (.noMemory, s)

/-- `EvtchnFifoPortEnable`. -/
def evtchnFifoPortEnable (answers : Answers) (Port : ℕ) (s : State) : Status × State :=
  if s.EventPageMdl.length ≤ Port / EVENT_WORDS_PER_PAGE then evtchnFifoExpand answers Port s
  else (.success, s)

/-- A call of `EvtchnFifoPortEnable`. -/
def step (s : State) (call : Answers × ℕ) : Option State :=
  some (evtchnFifoPortEnable call.1 call.2 s).2

/-- The state after `EvtchnFifoAcquire`. -/
def State.Acquired (s : State) : Prop := s.EventPageMdl = [] ∧ s.registered = []

/-- The pages that the call registered are in the array, each at the position at which it was registered. -/
def Kept (s t : State) : Prop :=
  ∀ i Page, s.registered.length ≤ i → t.registered[i]? = some Page → t.EventPageMdl[i]? = some Page

/-- The page for a position cannot be allocated, or not be registered. -/
def Answers.fails (answers : Answers) (Index : ℕ) : Bool :=
  !(answers.allocatePage Index && (answers.expandArray Index).ntSuccess)

/-- The call does not fail after it has registered a page. -/
def Clean (s : State) (call : Answers × ℕ) : Prop :=
  call.1.array = false ∨ call.1.fails s.EventPageMdl.length = true ∨
    ∀ Index, s.EventPageMdl.length ≤ Index → Index ≤ call.2 / EVENT_WORDS_PER_PAGE →
      call.1.fails Index = false

/-! ## The loop -/

/-- What the loop does: it registers the pages `new`, up to the first position that fails. -/
structure Adds (answers : Answers) (n : ℕ) (EventPageMdl : List ℕ) (s : State) (new : List ℕ)
    (result : Status × List ℕ × State) : Prop where
  array : result.2.1 = EventPageMdl ++ new
  kept : result.2.2.EventPageMdl = s.EventPageMdl
  registered : result.2.2.registered = s.registered ++ new
  held : ∀ Page, Page ∈ result.2.2.held ↔ Page ∈ s.held ∨ Page ∈ new
  fresh : ∀ Page ∈ new, Page ∉ s.held
  success : result.1.ntSuccess = true ↔ new.length = n
  length_le : new.length ≤ n
  passed : ∀ i < new.length, answers.fails (EventPageMdl.length + i) = false
  stopped : new.length < n → answers.fails (EventPageMdl.length + new.length) = true
  frame : ∀ Page ∈ s.held, result.2.2.words Page = s.words Page
  masked : ∀ Page ∈ new, ∀ Port < EVENT_WORDS_PER_PAGE,
    testFlag (result.2.2.words Page Port) MASKED = true

variable {answers : Answers} {n : ℕ} {EventPageMdl new : List ℕ} {s t : State}
  {result : Status × List ℕ × State}

theorem held_freePage_allocatePage {Pfn : ℕ} (h : Pfn ∉ s.held) :
    ((s.allocatePage Pfn).freePage Pfn).held = s.held :=
  Finset.erase_insert h

theorem words_allocatePage {Pfn Page : ℕ} (h : Page ≠ Pfn) :
    (s.allocatePage Pfn).words Page = s.words Page := by
  funext Port
  exact if_neg fun hPage => h hPage.1

theorem masked_allocatePage {Pfn Port : ℕ} (h : Port < EVENT_WORDS_PER_PAGE) :
    testFlag ((s.allocatePage Pfn).words Pfn Port) MASKED = true := by
  have hword : (s.allocatePage Pfn).words Pfn Port = setBit (s.words Pfn Port) MASKED := if_pos ⟨rfl, h⟩
  rw [hword, testFlag_setBit (by decide), decide_eq_true rfl, Bool.or_true]

/-- The loop stops at the first position. -/
theorem Adds.stop {status : Status} (hstatus : status.ntSuccess = false)
    (hfails : answers.fails EventPageMdl.length = true) (hkept : t.EventPageMdl = s.EventPageMdl)
    (hregistered : t.registered = s.registered) (hheld : t.held = s.held)
    (hframe : ∀ Page ∈ s.held, t.words Page = s.words Page) :
    Adds answers (n + 1) EventPageMdl s [] (status, EventPageMdl, t) where
  array := (List.append_nil _).symm
  kept := hkept
  registered := by rw [hregistered, List.append_nil]
  held Page := by simp [hheld]
  fresh Page hPage := absurd hPage List.not_mem_nil
  success := by simp [hstatus]
  length_le := Nat.zero_le _
  passed i hi := absurd hi (Nat.not_lt_zero i)
  stopped _ := hfails
  frame := hframe
  masked Page hPage := absurd hPage List.not_mem_nil

/-- The loop registers a page and goes on. -/
theorem Adds.next {Pfn : ℕ} (hPfn : Pfn ∉ s.held) (hfails : answers.fails EventPageMdl.length = false)
    (h : Adds answers n (EventPageMdl ++ [Pfn]) ((s.allocatePage Pfn).expandArray Pfn) new result) :
    Adds answers (n + 1) EventPageMdl s (Pfn :: new) result where
  array := by rw [h.array, List.append_assoc, List.singleton_append]
  kept := h.kept
  registered := by
    rw [h.registered, State.expandArray, List.append_assoc, List.singleton_append]
    rfl
  held Page := by
    rw [h.held, List.mem_cons, ← or_assoc]
    exact or_congr_left ((Finset.mem_insert).trans or_comm)
  fresh Page hPage := by
    rcases List.mem_cons.1 hPage with rfl | hnew
    · exact hPfn
    · exact fun hheld => h.fresh Page hnew (Finset.mem_insert_of_mem hheld)
  success := by rw [h.success, List.length_cons, Nat.add_right_cancel_iff]
  length_le := Nat.succ_le_succ h.length_le
  passed i hi := by
    cases i with
    | zero => exact hfails
    | succ i =>
      have := h.passed i (Nat.lt_of_succ_lt_succ hi)
      rwa [List.length_append, List.length_singleton, Nat.add_assoc, Nat.add_comm 1] at this
  stopped hlt := by
    have := h.stopped (Nat.lt_of_succ_lt_succ hlt)
    rwa [List.length_append, List.length_singleton, Nat.add_assoc, Nat.add_comm 1] at this
  frame Page hPage :=
    (h.frame Page (Finset.mem_insert_of_mem hPage)).trans (words_allocatePage fun heq => hPfn (heq ▸ hPage))
  masked Page hPage Port hPort := by
    rcases List.mem_cons.1 hPage with rfl | hnew
    · rw [h.frame Page (Finset.mem_insert_self _ _)]
      exact masked_allocatePage hPort
    · exact h.masked Page hnew Port hPort

theorem addPages_adds (answers : Answers) (n : ℕ) (EventPageMdl : List ℕ) (s : State) :
    ∃ new, Adds answers n EventPageMdl s new (addPages answers n EventPageMdl s) := by
  induction n generalizing EventPageMdl s with
  | zero => exact ⟨[], by simp [addPages], rfl, by simp [addPages], by simp [addPages],
      by simp, by simp [addPages, Status.ntSuccess], by simp, by simp, by simp, by simp [addPages], by simp⟩
  | succ n ih =>
    have hPfn := (answers.page EventPageMdl.length s.held).property
    simp only [addPages]
    split_ifs with hpage hstatus
    · obtain ⟨new, hadds⟩ := ih (EventPageMdl ++ [(answers.page EventPageMdl.length s.held).val])
        ((s.allocatePage _).expandArray _)
      exact ⟨_, hadds.next hPfn (by simp [Answers.fails, hpage, hstatus])⟩
    · refine ⟨[], .stop (Bool.eq_false_iff.2 hstatus) (by simp [Answers.fails, hstatus]) rfl rfl
        (held_freePage_allocatePage hPfn) fun Page hPage => words_allocatePage ?_⟩
      rintro rfl
      exact hPfn hPage
    · exact ⟨[], .stop rfl (by simp [Answers.fails, hpage]) rfl rfl rfl fun _ _ => rfl⟩

/-! ## One call -/

theorem foldl_freePage (pages : List ℕ) (s : State) :
    pages.foldl State.freePage s = { s with held := s.held \ pages.toFinset } := by
  induction pages generalizing s with
  | nil => simp
  | cons Page pages ih =>
    have hheld : s.held.erase Page \ pages.toFinset = s.held \ insert Page pages.toFinset := by
      ext
      simp only [Finset.mem_sdiff, Finset.mem_erase, Finset.mem_insert]
      tauto
    rw [List.foldl_cons, ih, List.toFinset_cons, ← hheld]
    rfl

/-- What a call of `EvtchnFifoPortEnable` does: it registers the pages `new`, and it keeps them all or it
frees them all. -/
structure Enables (call : Answers × ℕ) (s : State) (new : List ℕ) (result : Status × State) : Prop where
  registered : result.2.registered = s.registered ++ new
  success : result.1.ntSuccess = true → result.2.EventPageMdl = s.EventPageMdl ++ new ∧
    ∀ Page, Page ∈ result.2.held ↔ Page ∈ s.held ∨ Page ∈ new
  failure : result.1.ntSuccess = false → result.2.EventPageMdl = s.EventPageMdl ∧ result.2.held = s.held
  clean : Clean s call ↔ result.1.ntSuccess = true ∨ new = []
  enough : result.1.ntSuccess = true →
    call.2 / EVENT_WORDS_PER_PAGE < s.EventPageMdl.length + new.length
  masked : result.1.ntSuccess = true → ∀ Page ∈ new, ∀ Port < EVENT_WORDS_PER_PAGE,
    testFlag (result.2.words Page Port) MASKED = true

theorem Adds.enables {call : Answers × ℕ} (harray : call.1.array = true)
    (hexpand : s.EventPageMdl.length ≤ call.2 / EVENT_WORDS_PER_PAGE)
    (h : Adds call.1 (call.2 / EVENT_WORDS_PER_PAGE + 1 - s.EventPageMdl.length) s.EventPageMdl s new
      result) :
    Enables call s new (if result.1.ntSuccess then (.success, { result.2.2 with EventPageMdl := result.2.1 })
      else (result.1, (result.2.1.drop s.EventPageMdl.length).reverse.foldl State.freePage result.2.2)) := by
  have hlength := h.length_le
  have hdrop : result.2.1.drop s.EventPageMdl.length = new := by rw [h.array, List.drop_left]
  rw [hdrop, foldl_freePage]
  split_ifs with hstatus
  · have hall := h.success.1 hstatus
    refine ⟨h.registered, fun _ => ⟨h.array, h.held⟩, fun hfalse => by simp [Status.ntSuccess] at hfalse,
      iff_of_true (.inr (.inr fun Index hle hge => ?_)) (.inl rfl), fun _ => by omega, fun _ => h.masked⟩
    have hpassed := h.passed (Index - s.EventPageMdl.length) (by omega)
    rwa [Nat.add_sub_cancel' hle] at hpassed
  · have hlt : new.length < call.2 / EVENT_WORDS_PER_PAGE + 1 - s.EventPageMdl.length :=
      lt_of_le_of_ne hlength fun hall => hstatus (h.success.2 hall)
    have hstopped := h.stopped hlt
    refine ⟨h.registered, fun htrue => absurd htrue hstatus, fun _ => ⟨h.kept, ?_⟩, ?_,
      fun htrue => absurd htrue hstatus, fun htrue => absurd htrue hstatus⟩
    · ext Page
      rw [Finset.mem_sdiff, h.held, List.mem_toFinset, List.mem_reverse]
      exact ⟨fun hPage => hPage.1.resolve_right hPage.2,
        fun hPage => ⟨.inl hPage, fun hnew => h.fresh _ hnew hPage⟩⟩
    · rw [or_iff_right hstatus]
      constructor
      · rintro (hnone | hfirst | hnever)
        · rw [harray] at hnone
          cases hnone
        · by_contra hne
          have hpassed := h.passed 0 (List.length_pos_of_ne_nil hne)
          rw [Nat.add_zero, hfirst] at hpassed
          cases hpassed
        · rw [hnever _ (Nat.le_add_right _ _) (by omega)] at hstopped
          cases hstopped
      · rintro rfl
        exact .inr (.inl hstopped)

theorem evtchnFifoPortEnable_enables (call : Answers × ℕ) (s : State) :
    ∃ new, Enables call s new (evtchnFifoPortEnable call.1 call.2 s) := by
  rw [evtchnFifoPortEnable]
  split_ifs with hexpand
  · rw [evtchnFifoExpand]
    cases harray : call.1.array with
    | true =>
      obtain ⟨new, hadds⟩ := addPages_adds call.1 _ s.EventPageMdl s
      exact ⟨new, hadds.enables harray hexpand⟩
    | false =>
      exact ⟨[], by simp, by simp [Status.ntSuccess], by simp, iff_of_true (.inl harray) (.inr rfl),
        by simp [Status.ntSuccess], by simp⟩
  · exact ⟨[], by simp, by simp, by simp [Status.ntSuccess],
      iff_of_true (.inr (.inr fun Index hle hge => by omega)) (.inl rfl), fun _ => by simpa using hexpand,
      by simp⟩

/-- A call keeps the pages that it registers if and only if it is clean. -/
theorem kept_iff (call : Answers × ℕ) (hlength : s.registered.length = s.EventPageMdl.length) :
    Kept s (evtchnFifoPortEnable call.1 call.2 s).2 ↔ Clean s call := by
  obtain ⟨new, h⟩ := evtchnFifoPortEnable_enables call s
  rw [h.clean, Kept, h.registered]
  constructor
  · intro hkept
    cases hstatus : (evtchnFifoPortEnable call.1 call.2 s).1.ntSuccess with
    | true => exact .inl rfl
    | false =>
      refine .inr (List.eq_nil_iff_forall_not_mem.2 fun Page hPage => ?_)
      obtain ⟨i, hi, rfl⟩ := List.mem_iff_getElem.1 hPage
      have hget := hkept (s.registered.length + i) new[i] (Nat.le_add_right _ _) (by simp [hi])
      rw [(h.failure hstatus).1, List.getElem?_eq_none (by omega)] at hget
      cases hget
  · rintro (hstatus | rfl) i Page hi hget
    · rw [(h.success hstatus).1, List.getElem?_append_right (hlength ▸ hi), ← hlength]
      rwa [List.getElem?_append_right hi] at hget
    · rw [List.append_nil, List.getElem?_eq_none hi] at hget
      cases hget

/-- A port is masked when it is enabled for the first time on its page. -/
theorem masked_of_enabled {Port : ℕ} (hnew : s.EventPageMdl.length ≤ Port / EVENT_WORDS_PER_PAGE)
    (hstatus : (evtchnFifoPortEnable answers Port s).1.ntSuccess = true) :
    ∃ word, (evtchnFifoPortEnable answers Port s).2.eventWord Port = some word ∧
      testFlag word MASKED = true := by
  obtain ⟨new, h⟩ := evtchnFifoPortEnable_enables (answers, Port) s
  have henough := h.enough hstatus
  have hi : Port / EVENT_WORDS_PER_PAGE - s.EventPageMdl.length < new.length := by
    simp only [EVENT_WORDS_PER_PAGE] at *
    omega
  have hoffset : Port - Port / EVENT_WORDS_PER_PAGE * EVENT_WORDS_PER_PAGE < EVENT_WORDS_PER_PAGE := by
    simp only [EVENT_WORDS_PER_PAGE] at *
    omega
  refine ⟨_, ?_, h.masked hstatus _ (List.getElem_mem hi) _ hoffset⟩
  rw [State.eventWord, (h.success hstatus).1, List.getElem?_append_right hnew, List.getElem?_eq_getElem hi]
  rfl

/-! ## Runs -/

/-- Both sides have the same pages, and all of them are allocated. -/
structure Agree (s : State) : Prop where
  array : s.EventPageMdl = s.registered
  held : ∀ Page ∈ s.registered, Page ∈ s.held

theorem State.Acquired.agree (h : s.Acquired) : Agree s where
  array := h.1.trans h.2.symm
  held Page hPage := by
    rw [h.2] at hPage
    cases hPage

/-- What one clean call preserves. -/
theorem Agree.portEnable (h : Agree s) {call : Answers × ℕ} (hclean : Clean s call) :
    Agree (evtchnFifoPortEnable call.1 call.2 s).2 := by
  obtain ⟨new, henables⟩ := evtchnFifoPortEnable_enables call s
  cases hstatus : (evtchnFifoPortEnable call.1 call.2 s).1.ntSuccess with
  | true =>
    obtain ⟨harray, hheld⟩ := henables.success hstatus
    refine ⟨by rw [harray, henables.registered, h.array], fun Page hPage => ?_⟩
    rw [henables.registered, List.mem_append] at hPage
    exact (hheld Page).2 (hPage.imp_left (h.held Page))
  | false =>
    obtain ⟨harray, hheld⟩ := henables.failure hstatus
    obtain rfl : new = [] := (henables.clean.1 hclean).resolve_left (by simp [hstatus])
    have hregistered := henables.registered.trans (List.append_nil _)
    refine ⟨by rw [harray, hregistered, h.array], fun Page hPage => ?_⟩
    rw [hheld]
    exact h.held Page (hregistered ▸ hPage)

/-- The two sides agree on every word. -/
theorem Agree.eventWord (h : Agree s) (Port : ℕ) : s.eventWord Port = s.hypervisorWord Port := by
  rw [State.eventWord, State.hypervisorWord, h.array]

theorem Agree.of_reaches (h : Agree s) (hrun : Reaches step Clean s t) : Agree t :=
  hrun.invariant h fun _ _ _ hagree hclean hstep => Option.some.inj hstep ▸ hagree.portEnable hclean

/-- **A call keeps what it registers exactly when it does not fail after it has registered a page**, and in a
run of such calls the two sides have the same pages, and none of them is freed. -/
theorem kept_iff_clean (s : State) :
    (∀ call : Answers × ℕ, s.registered.length = s.EventPageMdl.length →
      (Kept s (evtchnFifoPortEnable call.1 call.2 s).2 ↔ Clean s call)) ∧
    ∀ t : State, s.Acquired → Reaches step Clean s t →
      (∀ i < t.EventPageMdl.length, t.EventPageMdl[i]? = t.registered[i]?) ∧
      (∀ Page ∈ t.registered, Page ∈ t.held) ∧
      ∀ Port, t.eventWord Port = t.hypervisorWord Port := by
  refine ⟨fun call hlength => kept_iff call hlength, fun t hacquired hrun => ?_⟩
  have hagree := hacquired.agree.of_reaches hrun
  exact ⟨fun i _ => by rw [hagree.array], hagree.held, hagree.eventWord⟩

/-- The allocator that takes the lowest frame above those in use. -/
def above (held : Finset ℕ) : {Pfn : ℕ // Pfn ∉ held} :=
  ⟨held.sup id + 1, fun h => Nat.not_succ_le_self _ (Finset.le_sup (f := id) h)⟩

/-- No page and no port so far. -/
def empty : State := ⟨[], [], ∅, fun _ _ => 0⟩

/-- No answer is a failure. -/
def plenty : Answers := ⟨true, fun _ => true, fun _ => above, fun _ => .success⟩

/-- The second page cannot be registered. -/
def refused : Answers :=
  ⟨true, fun _ => true, fun _ => above,
    fun Index => if Index = 1 then .insufficientResources else .success⟩

theorem clean_plenty (s : State) (Port : ℕ) : Clean s (plenty, Port) :=
  .inr (.inr fun _ _ _ => rfl)

theorem kept_iff_clean_plenty :
    Kept empty (evtchnFifoPortEnable plenty 1024 empty).2 ∧
      ∀ Page ∈ (evtchnFifoPortEnable plenty 1024 empty).2.registered,
        Page ∈ (evtchnFifoPortEnable plenty 1024 empty).2.held :=
  ⟨((kept_iff_clean empty).1 (plenty, 1024) rfl).2 (clean_plenty _ _),
    ((kept_iff_clean empty).2 _ ⟨rfl, rfl⟩
      (Reaches.single (a := (plenty, 1024)) (clean_plenty _ _) rfl)).2.1⟩

/-- **A page is lost to the hypervisor.** The first port of the second page, and the second page cannot be
registered: the first one has been, and it is freed. -/
theorem registered_page_freed :
    ∃ Page, (evtchnFifoPortEnable refused 1024 empty).2.registered[0]? = some Page ∧
      (evtchnFifoPortEnable refused 1024 empty).2.EventPageMdl[0]? = none ∧
      Page ∉ (evtchnFifoPortEnable refused 1024 empty).2.held :=
  ⟨1, by decide⟩

end XenBus.Evtchn.EventArray
