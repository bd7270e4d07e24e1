import XenBus.Gnttab.Clients

/-!
# Revoking a grant

`GnttabRevokeForeignAccess` beside the other domain, which begins and ends accesses to the page as long
as it is permitted: it sets and clears `GTF_reading` and `GTF_writing` between any two steps of the loop.
The shared entry is part of the context here, and the flags that an attempt finds are those that it has;
`gnttabRevoke_eq` is that this is the function of the model.

The loop counts one attempt more than it makes when it runs out of them, and the test after it is for
100: `revoke_faithful_iff` says for which accesses its verdict is right.
-/

namespace XenBus.Gnttab

open MachineInt ObjectCache Transition

variable {n : ℕ}

/-! ## The other domain -/

/-- `GTF_reading` and `GTF_writing`: the accesses that the other domain has under way. -/
structure Access where
  reading : Bool
  writing : Bool
  deriving DecidableEq

/-- No access is under way. -/
def Access.quiet : Access := ⟨false, false⟩

/-- The two flags. -/
def Access.word (a : Access) : ℕ :=
  (if a.reading then gtfReading else 0) ||| (if a.writing then gtfWriting else 0)

/-- The flags permit access. -/
def Permitting (flags : ℕ) : Prop := flags &&& gtfPermitAccess ≠ 0

instance (flags : ℕ) : Decidable (Permitting flags) := inferInstanceAs (Decidable (_ ≠ _))

/-- The other domain begins and ends accesses, as long as they are permitted. -/
def Context.access (ctx : Context) (Reference : ℕ) (a : Access) : Context :=
  let entry := ctx.grant Reference
  if Permitting entry.flags then
    ctx.setGrant Reference
      { entry with flags := clearBits entry.flags (gtfReading ||| gtfWriting) ||| a.word }
  else ctx

/-! ## The function -/

/-- A compare-exchange that was made: the flags before it and after it. -/
structure Exchange where
  before : ℕ
  after : ℕ
  deriving DecidableEq

/-- One attempt, with the accesses that are under way when it reads the flags and when it exchanges them. -/
def revokeAttempt (Reference : ℕ) (read exchange : Access) (ctx : Context) : Option Exchange × Context :=
  let ctx := ctx.access Reference read
  let Old := clearBits (ctx.grant Reference).flags (gtfReading ||| gtfWriting)
  let New := clearBits Old gtfPermitAccess
  let ctx := ctx.access Reference exchange
  let entry := ctx.grant Reference
  if entry.flags = Old then (some ⟨entry.flags, New⟩, ctx.setGrant Reference { entry with flags := New })
  else (none, ctx)

/-- The loop of `GnttabRevokeForeignAccess`, from `Attempt` on: `Attempt` after it, and the exchange. -/
def revokeAttempts (Reference : ℕ) :
    ℕ → List (Access × Access) → Context → ℕ × Option Exchange × Context
  | Attempt, [], ctx => (Attempt + 1, none, ctx)
  | Attempt, (read, exchange) :: accesses, ctx =>
    match revokeAttempt Reference read exchange ctx with
    | (some e, ctx') => (Attempt + 1, some e, ctx')
    | (none, ctx') => revokeAttempts Reference (Attempt + 1) accesses ctx'

/-- `GnttabRevokeForeignAccess` beside the other domain: the exchange that it made, and what it returns. -/
def gnttabRevoke (cache : Cache n) (cpu : Fin n) (Object : ℕ) (accesses : Fin 100 → Access × Access)
    (ctx : Context) : Option Exchange × Option (Status × Cache n × Context) :=
  let (Attempt, exchange, ctx') :=
    revokeAttempts (ctx.Object Object).Reference 0 (List.ofFn accesses) ctx
  (exchange, revokeDone cache cpu Object Attempt ctx')

/-! ## What is expected -/

/-- The object is in the cache: in a magazine, or free in its slab. -/
def Cached (cache : Cache n) (o : ℕ) : Prop :=
  (∃ cpu, some o ∈ cache.Magazine cpu) ∨ o ∉ cache.allocated

/-- Access was withdrawn: an exchange cleared `GTF_permit_access` when no access was under way. -/
def Withdrawn (exchange : Option Exchange) : Prop :=
  ∃ e ∈ exchange, Permitting e.before ∧ e.before &&& (gtfReading ||| gtfWriting) = 0 ∧
    ¬ Permitting e.after

/-- The verdict is right: success exactly if access was withdrawn, and then the shared entry is zero and
the `Entry` in the cache; else the grant stands and the `Entry` is not in the cache. -/
structure Faithful (Object : ℕ) (ctx : Context) (exchange : Option Exchange) (status : Status)
    (cache' : Cache n) (ctx' : Context) : Prop where
  success : (status = .success ∧ ctx'.grant (ctx.Object Object).Reference = .zero ∧
    Cached cache' Object) ↔ Withdrawn exchange
  failure : ¬ Withdrawn exchange → status.ntSuccess = false ∧
    Permitting (ctx'.grant (ctx.Object Object).Reference).flags ∧
    (ctx'.grant (ctx.Object Object).Reference).frame = (ctx.grant (ctx.Object Object).Reference).frame ∧
    (ctx'.grant (ctx.Object Object).Reference).domid = (ctx.grant (ctx.Object Object).Reference).domid ∧
    ¬ Cached cache' Object

/-! ## Flags -/

variable {ctx : Context} {Reference : ℕ} {a read exchange : Access} {flags : ℕ}

@[simp]
theorem grant_setGrant (entry : GrantEntry) : (ctx.setGrant Reference entry).grant Reference = entry := by
  simp [Context.grant, Context.setGrant]

@[simp]
theorem setGrant_object (entry : GrantEntry) : (ctx.setGrant Reference entry).Object = ctx.Object := rfl

@[simp]
theorem setGrant_setGrant (entry entry' : GrantEntry) :
    (ctx.setGrant Reference entry).setGrant Reference entry' = ctx.setGrant Reference entry' := by
  simp [Context.setGrant]

theorem setGrant_grant (ctx : Context) (Reference : ℕ) :
    ctx.setGrant Reference (ctx.grant Reference) = ctx := by
  simp [Context.grant, Context.setGrant]

theorem word_and_clear (a : Access) : a.word &&& (65535 ^^^ (gtfReading ||| gtfWriting)) = 0 := by
  obtain ⟨reading, writing⟩ := a
  cases reading <;> cases writing <;> rfl

theorem word_eq_zero : a.word = 0 ↔ a = .quiet := by
  obtain ⟨reading, writing⟩ := a
  cases reading <;> cases writing <;> decide

theorem word_and_mask (a : Access) : a.word &&& (gtfReading ||| gtfWriting) = a.word := by
  obtain ⟨reading, writing⟩ := a
  cases reading <;> cases writing <;> rfl

theorem word_and_permit (a : Access) : a.word &&& gtfPermitAccess = 0 := by
  obtain ⟨reading, writing⟩ := a
  cases reading <;> cases writing <;> rfl

theorem clearBits_and_mask (flags : ℕ) :
    clearBits flags (gtfReading ||| gtfWriting) &&& (gtfReading ||| gtfWriting) = 0 := by
  have hmask : (65535 ^^^ (gtfReading ||| gtfWriting)) &&& (gtfReading ||| gtfWriting) = 0 := by decide
  rw [clearBits, Nat.and_assoc, hmask, Nat.and_zero]

/-- The other flags stay when accesses begin and end. -/
theorem clearBits_or_word : clearBits (clearBits flags (gtfReading ||| gtfWriting) ||| a.word)
    (gtfReading ||| gtfWriting) = clearBits flags (gtfReading ||| gtfWriting) := by
  unfold clearBits
  rw [Nat.and_or_distrib_right, word_and_clear, Nat.or_zero, Nat.and_assoc, Nat.and_self]

theorem or_word_eq_iff : clearBits flags (gtfReading ||| gtfWriting) ||| a.word =
    clearBits flags (gtfReading ||| gtfWriting) ↔ a = .quiet := by
  rw [← word_eq_zero]
  constructor
  · intro heq
    have hmask := congrArg (· &&& (gtfReading ||| gtfWriting)) heq
    simp only [Nat.and_or_distrib_right, clearBits_and_mask, word_and_mask, Nat.zero_or] at hmask
    exact hmask
  · intro hzero
    rw [hzero, Nat.or_zero]

theorem permitting_or_word :
    Permitting (clearBits flags (gtfReading ||| gtfWriting) ||| a.word) ↔ Permitting flags := by
  have hmask : (65535 ^^^ (gtfReading ||| gtfWriting)) &&& gtfPermitAccess = gtfPermitAccess := by decide
  unfold Permitting clearBits
  rw [Nat.and_or_distrib_right, word_and_permit, Nat.or_zero, Nat.and_assoc, hmask]

theorem permitting_clearBits :
    Permitting (clearBits flags (gtfReading ||| gtfWriting)) ↔ Permitting flags := by
  have hword : _ ↔ Permitting flags := permitting_or_word (a := .quiet)
  rwa [word_eq_zero.mpr rfl, Nat.or_zero] at hword

theorem not_permitting_clearBits (flags : ℕ) : ¬ Permitting (clearBits flags gtfPermitAccess) := by
  have hmask : (65535 ^^^ gtfPermitAccess) &&& gtfPermitAccess = 0 := by decide
  unfold Permitting clearBits
  rw [Nat.and_assoc, hmask, Nat.and_zero]
  exact fun h => h rfl

/-! ## The loop -/

/-- The grant stands: the context is as `ctx` but for accesses to its entry. -/
structure Stands (Reference : ℕ) (ctx ctx' : Context) : Prop where
  context : ctx' = ctx.setGrant Reference (ctx'.grant Reference)
  permitting : Permitting (ctx'.grant Reference).flags
  flags : clearBits (ctx'.grant Reference).flags (gtfReading ||| gtfWriting) =
    clearBits (ctx.grant Reference).flags (gtfReading ||| gtfWriting)
  domid : (ctx'.grant Reference).domid = (ctx.grant Reference).domid
  frame : (ctx'.grant Reference).frame = (ctx.grant Reference).frame

theorem access_of_permitting (h : Permitting (ctx.grant Reference).flags) :
    ctx.access Reference a = ctx.setGrant Reference { ctx.grant Reference with
      flags := clearBits (ctx.grant Reference).flags (gtfReading ||| gtfWriting) ||| a.word } :=
  if_pos h

theorem Stands.refl (h : Permitting (ctx.grant Reference).flags) : Stands Reference ctx ctx :=
  ⟨(setGrant_grant ctx Reference).symm, h, rfl, rfl, rfl⟩

theorem Stands.access {ctx' : Context} (h : Stands Reference ctx ctx') (a : Access) :
    Stands Reference ctx (ctx'.access Reference a) := by
  rw [access_of_permitting h.permitting]
  refine ⟨?_, ?_, ?_, ?_, ?_⟩
  · rw [grant_setGrant, h.context, setGrant_setGrant]
  · rw [grant_setGrant]
    exact permitting_or_word.mpr h.permitting
  · rw [grant_setGrant]
    exact clearBits_or_word.trans h.flags
  · rw [grant_setGrant]
    exact h.domid
  · rw [grant_setGrant]
    exact h.frame

/-- What an exchange writes into an entry that stands. -/
theorem Stands.setGrant {ctx' : Context} (h : Stands Reference ctx ctx') (New : ℕ) :
    ctx'.setGrant Reference { ctx'.grant Reference with flags := New } =
      ctx.setGrant Reference { ctx.grant Reference with flags := New } := by
  dsimp only
  rw [h.domid, h.frame, h.context, setGrant_setGrant]

/-- The exchange that withdraws access to a grant. -/
def withdrawal (flags : ℕ) : Exchange :=
  ⟨clearBits flags (gtfReading ||| gtfWriting),
    clearBits (clearBits flags (gtfReading ||| gtfWriting)) gtfPermitAccess⟩

/-- The context when access has been withdrawn. -/
def Context.withdrawn (ctx : Context) (Reference : ℕ) : Context :=
  ctx.setGrant Reference
    { ctx.grant Reference with flags := (withdrawal (ctx.grant Reference).flags).after }

/-- An attempt exchanges the flags if no access is under way then. -/
theorem revokeAttempt_of_quiet {ctx' : Context} (h : Stands Reference ctx ctx')
    (hquiet : exchange = .quiet) : revokeAttempt Reference read exchange ctx' =
      (some (withdrawal (ctx.grant Reference).flags), ctx.withdrawn Reference) := by
  have hread := h.access read
  have hexchange := hread.access exchange
  have hflags : ((ctx'.access Reference read).access Reference exchange |>.grant Reference).flags =
      clearBits (ctx.grant Reference).flags (gtfReading ||| gtfWriting) := by
    rw [access_of_permitting hread.permitting, grant_setGrant]
    exact (or_word_eq_iff.mpr hquiet).trans hread.flags
  unfold revokeAttempt
  dsimp only
  rw [hflags, hread.flags, if_pos rfl, hexchange.setGrant]
  rfl

/-- Else the grant stands. -/
theorem revokeAttempt_of_ne {ctx' : Context} (h : Stands Reference ctx ctx') (read : Access)
    (hquiet : exchange ≠ .quiet) : ∃ ctx'', revokeAttempt Reference read exchange ctx' = (none, ctx'') ∧
      Stands Reference ctx ctx'' := by
  have hread := h.access read
  have hflags : ((ctx'.access Reference read).access Reference exchange |>.grant Reference).flags ≠
      clearBits (ctx'.access Reference read |>.grant Reference).flags (gtfReading ||| gtfWriting) := by
    rw [access_of_permitting (a := exchange) hread.permitting, grant_setGrant]
    exact fun heq => hquiet (or_word_eq_iff.mp heq)
  unfold revokeAttempt
  dsimp only
  rw [if_neg hflags]
  exact ⟨_, rfl, hread.access exchange⟩

/-- No access is under way when an attempt exchanges the flags. -/
def quietAt (accesses : Access × Access) : Bool := decide (accesses.2 = .quiet)

/-- The loop ends with the first attempt that finds no access under way. -/
theorem revokeAttempts_spec (accesses : List (Access × Access)) :
    ∀ {ctx' : Context} (Attempt : ℕ), Stands Reference ctx ctx' →
      ∃ ctx'', revokeAttempts Reference Attempt accesses ctx' =
          (Attempt + accesses.findIdx quietAt + 1,
            if accesses.any quietAt then some (withdrawal (ctx.grant Reference).flags) else none, ctx'') ∧
        if accesses.any quietAt then ctx'' = ctx.withdrawn Reference else Stands Reference ctx ctx'' := by
  induction accesses with
  | nil => exact fun Attempt h => ⟨_, rfl, h⟩
  | cons x accesses ih =>
    intro ctx' Attempt h
    obtain ⟨read, exchange⟩ := x
    rw [revokeAttempts]
    by_cases hquiet : exchange = .quiet
    · have hat : quietAt (read, exchange) = true := decide_eq_true hquiet
      rw [revokeAttempt_of_quiet h hquiet]
      simp only [List.findIdx_cons, List.any_cons, hat, Bool.true_or, cond_true, if_true]
      exact ⟨_, rfl, rfl⟩
    · have hat : quietAt (read, exchange) = false := decide_eq_false hquiet
      obtain ⟨ctx₁, hattempt, hstands⟩ := revokeAttempt_of_ne h read hquiet
      obtain ⟨ctx₂, hloop, hctx⟩ := ih (Attempt + 1) hstands
      rw [hattempt]
      simp only [List.findIdx_cons, List.any_cons, hat, Bool.false_or, cond_false, hloop]
      rw [show Attempt + 1 + List.findIdx quietAt accesses + 1 =
        Attempt + (List.findIdx quietAt accesses + 1) + 1 by omega]
      exact ⟨ctx₂, rfl, hctx⟩

/-- The flags that an attempt finds. -/
def wordsOf (flags : ℕ) (accesses : Access × Access) : ℕ × ℕ :=
  (clearBits flags (gtfReading ||| gtfWriting) ||| accesses.1.word,
    clearBits flags (gtfReading ||| gtfWriting) ||| accesses.2.word)

/-- The loop of the model, on the flags that the other domain leaves there. -/
theorem revokeLoop_wordsOf (flags : ℕ) (accesses : List (Access × Access)) :
    ∀ Attempt, revokeLoop Attempt (accesses.map (wordsOf flags)) =
      (Attempt + accesses.findIdx quietAt + 1,
        if accesses.any quietAt then some (withdrawal flags).after else none) := by
  induction accesses with
  | nil => exact fun Attempt => rfl
  | cons x accesses ih =>
    intro Attempt
    simp only [List.map_cons, revokeLoop, wordsOf, clearBits_or_word, or_word_eq_iff]
    by_cases hquiet : x.2 = .quiet
    · have hat : quietAt x = true := decide_eq_true hquiet
      simp only [if_pos hquiet, List.findIdx_cons, List.any_cons, hat, Bool.true_or, cond_true, if_true]
      rfl
    · have hat : quietAt x = false := decide_eq_false hquiet
      rw [if_neg hquiet, ih]
      simp only [List.findIdx_cons, List.any_cons, hat, Bool.false_or, cond_false]
      rw [show Attempt + 1 + List.findIdx quietAt accesses + 1 =
        Attempt + (List.findIdx quietAt accesses + 1) + 1 by omega]

theorem revokeDone_setGrant (cache : Cache n) (cpu : Fin n) (Object : ℕ) {Attempt : ℕ}
    (hattempt : Attempt ≠ 100) (entry : GrantEntry) :
    revokeDone cache cpu Object Attempt (ctx.setGrant (ctx.Object Object).Reference entry) =
      revokeDone cache cpu Object Attempt ctx := by
  unfold revokeDone
  simp only [if_neg hattempt, setGrant_object, setGrant_setGrant]

theorem any_quietAt {accesses : Fin 100 → Access × Access} :
    (List.ofFn accesses).any quietAt = decide ((List.ofFn accesses).findIdx quietAt < 100) := by
  have hlt := @List.findIdx_lt_length _ quietAt (List.ofFn accesses)
  rw [List.length_ofFn] at hlt
  rw [Bool.eq_iff_iff, List.any_eq_true, decide_eq_true_iff]
  exact hlt.symm

/-- **The function is that of the model**, on the flags that the other domain leaves. -/
theorem gnttabRevoke_eq (cache : Cache n) (cpu : Fin n) (Object : ℕ)
    (accesses : Fin 100 → Access × Access)
    (hpermit : Permitting (ctx.grant (ctx.Object Object).Reference).flags) :
    (gnttabRevoke cache cpu Object accesses ctx).2 = gnttabRevokeForeignAccess cache cpu Object
      (fun i => wordsOf (ctx.grant (ctx.Object Object).Reference).flags (accesses i)) ctx := by
  obtain ⟨ctx₁, hloop, hctx⟩ := revokeAttempts_spec (List.ofFn accesses) 0 (Stands.refl hpermit)
  have hwords : List.ofFn (fun i => wordsOf (ctx.grant (ctx.Object Object).Reference).flags (accesses i)) =
      (List.ofFn accesses).map (wordsOf (ctx.grant (ctx.Object Object).Reference).flags) := by
    rw [List.map_ofFn]
    rfl
  unfold gnttabRevoke gnttabRevokeForeignAccess
  rw [hloop, hwords, revokeLoop_wordsOf]
  by_cases hany : (List.ofFn accesses).any quietAt = true
  · simp only [if_pos hany] at hctx ⊢
    rw [hctx]
    rfl
  · have hattempt : 0 + (List.ofFn accesses).findIdx quietAt + 1 ≠ 100 := by
      rw [any_quietAt, decide_eq_true_iff] at hany
      omega
    simp only [if_neg hany] at hctx ⊢
    rw [hctx.context]
    exact revokeDone_setGrant cache cpu Object hattempt _

theorem findIdx_quietAt_lt (accesses : Fin 100 → Access × Access) {m : ℕ} (hm : m ≤ 100) :
    (List.ofFn accesses).findIdx quietAt < m ↔ ∃ k, k.val < m ∧ (accesses k).2 = .quiet := by
  constructor
  · intro hlt
    have hlength : (List.ofFn accesses).findIdx quietAt < (List.ofFn accesses).length := by
      rw [List.length_ofFn]
      omega
    have hquiet := List.findIdx_getElem (w := hlength)
    rw [List.getElem_ofFn] at hquiet
    exact ⟨_, hlt, of_decide_eq_true hquiet⟩
  · rintro ⟨k, hk, hquiet⟩
    by_contra hge
    have hlt : k.val < (List.ofFn accesses).findIdx quietAt := by omega
    have hnot := List.not_of_lt_findIdx hlt
    rw [List.getElem_ofFn] at hnot
    exact Bool.false_ne_true ((decide_eq_true hquiet).symm.trans hnot).symm

/-! ## The verdict -/

section Cache

variable {cache : Cache n} {held : List ℕ} {Object : ℕ}

/-- What no user has is in the cache. -/
theorem cached_of_notMem (h : InUse cache held) (ho : Object ∉ held) : Cached cache Object := by
  by_cases hallocated : Object ∈ cache.allocated
  · have hused := h.balance.used Object hallocated
    simp only [clients, Pending.count, Finset.sum_const_zero, add_zero, List.count_eq_zero.mpr ho,
      Nat.cast_zero, zero_add] at hused
    by_contra hnot
    have hzero : inMagazines cache.Magazine Object = 0 := by
      refine Finset.sum_eq_zero fun cpu _ => ?_
      have hmem : some Object ∉ cache.Magazine cpu := fun hmem => hnot (.inl ⟨cpu, hmem⟩)
      rw [List.count_eq_zero.mpr hmem, Nat.cast_zero]
    omega
  · exact .inr hallocated

/-- A user has an object once. -/
theorem notMem_erase (h : InUse cache held) (ho : Object ∈ held) : Object ∉ held.erase Object := by
  have hused := h.balance.used Object (h.allocated ho)
  have hin := inMagazines_nonneg (M := cache.Magazine) (o := Object)
  simp only [clients, Pending.count, Finset.sum_const_zero, add_zero] at hused
  rw [← List.count_eq_zero, List.count_erase_self]
  omega

theorem withdrawn_withdrawal (h : Permitting flags) : Withdrawn (some (withdrawal flags)) :=
  ⟨_, rfl, permitting_clearBits.mpr h, clearBits_and_mask _, not_permitting_clearBits _⟩

theorem not_withdrawn_none : ¬ Withdrawn none := by
  rintro ⟨e, he, -⟩
  exact absurd he (Option.not_mem_none _)

/-- What the function returns: `STATUS_UNSUCCESSFUL` exactly if the hundredth attempt is the first that
finds no access under way. -/
theorem gnttabRevoke_spec (h : InUse cache held) (ho : Object ∈ held) (cpu : Fin n)
    (accesses : Fin 100 → Access × Access)
    (hpermit : Permitting (ctx.grant (ctx.Object Object).Reference).flags) :
    ∃ exchange status cache' ctx',
      gnttabRevoke cache cpu Object accesses ctx = (exchange, some (status, cache', ctx')) ∧
      (Withdrawn exchange ↔ ∃ k, (accesses k).2 = .quiet) ∧
      if (List.ofFn accesses).findIdx quietAt = 99 then status = .unsuccessful else
        status = .success ∧ ctx'.grant (ctx.Object Object).Reference = .zero ∧ Cached cache' Object := by
  obtain ⟨ctx₁, hloop, hctx⟩ := revokeAttempts_spec (List.ofFn accesses) 0 (Stands.refl hpermit)
  obtain ⟨cache', hput, hinUse, -⟩ := cachePut_spec (A := cache.SlabList.map Slab.Address) client h
    (fun slab hslab => List.mem_map_of_mem hslab) ho cpu ctx
  have hobject : ctx₁.Object = ctx.Object := by
    split_ifs at hctx with hany
    · rw [hctx]
      rfl
    · rw [hctx.context]
      rfl
  have hwithdrawn : Withdrawn (if (List.ofFn accesses).any quietAt then
      some (withdrawal (ctx.grant (ctx.Object Object).Reference).flags) else none) ↔
      ∃ k, (accesses k).2 = .quiet := by
    have hlt := findIdx_quietAt_lt accesses (le_refl 100)
    simp only [Fin.is_lt, true_and] at hlt
    rw [any_quietAt, ← hlt]
    by_cases hany : (List.ofFn accesses).findIdx quietAt < 100
    · simp only [hany, decide_true, if_true, iff_true]
      exact withdrawn_withdrawal hpermit
    · simp only [hany, decide_false, Bool.false_eq_true, if_false, iff_false]
      exact not_withdrawn_none
  unfold gnttabRevoke
  rw [hloop]
  generalize (if (List.ofFn accesses).any quietAt then _ else none) = exchange at hwithdrawn ⊢
  dsimp only
  unfold revokeDone
  by_cases hlast : (List.ofFn accesses).findIdx quietAt = 99
  · rw [if_pos (c := _ = 100) (by omega)]
    refine ⟨exchange, _, _, _, rfl, hwithdrawn, ?_⟩
    rw [if_pos hlast]
  · rw [if_neg (c := _ = 100) (by omega), hput]
    refine ⟨exchange, _, _, _, rfl, hwithdrawn, ?_⟩
    rw [if_neg hlast]
    refine ⟨rfl, ?_, cached_of_notMem hinUse (notMem_erase h ho)⟩
    rw [hobject]
    exact grant_setGrant _

/-- A page that is accessed at every exchange stays granted, and the function says that it is not. -/
theorem gnttabRevoke_of_busy (h : InUse cache held) (ho : Object ∈ held) (cpu : Fin n)
    (accesses : Fin 100 → Access × Access)
    (hpermit : Permitting (ctx.grant (ctx.Object Object).Reference).flags)
    (hbusy : ∀ k, (accesses k).2 ≠ .quiet) :
    ∃ exchange status cache' ctx',
      gnttabRevoke cache cpu Object accesses ctx = (exchange, some (status, cache', ctx')) ∧
      status = .success ∧ ¬ Withdrawn exchange := by
  obtain ⟨exchange, status, cache', ctx', hrevoke, hwithdrawn, hverdict⟩ :=
    gnttabRevoke_spec h ho cpu accesses hpermit
  have hnot : ¬ Withdrawn exchange := by
    intro hw
    obtain ⟨k, hquiet⟩ := hwithdrawn.mp hw
    exact hbusy k hquiet
  have hlast : (List.ofFn accesses).findIdx quietAt ≠ 99 := by
    intro heq
    obtain ⟨k, -, hquiet⟩ := (findIdx_quietAt_lt accesses (le_refl 100)).mp (by omega)
    exact hbusy k hquiet
  rw [if_neg hlast] at hverdict
  exact ⟨exchange, status, cache', ctx', hrevoke, hverdict.1, hnot⟩

/-- **The verdict is right exactly if one of the first 99 exchanges finds no access under way.** If none
of the 100 does, the function says that it has revoked a grant that stands, and zeroes it; if the last is
the first that does, the function says that it has not. -/
theorem revoke_faithful_iff (h : InUse cache held) (ho : Object ∈ held) (cpu : Fin n)
    (accesses : Fin 100 → Access × Access)
    (hpermit : Permitting (ctx.grant (ctx.Object Object).Reference).flags) :
    ∃ exchange status cache' ctx',
      gnttabRevoke cache cpu Object accesses ctx = (exchange, some (status, cache', ctx')) ∧
      (Faithful Object ctx exchange status cache' ctx' ↔ ∃ k, k.val < 99 ∧ (accesses k).2 = .quiet) := by
  obtain ⟨exchange, status, cache', ctx', hrevoke, hwithdrawn, hverdict⟩ :=
    gnttabRevoke_spec h ho cpu accesses hpermit
  refine ⟨exchange, status, cache', ctx', hrevoke, ?_⟩
  have hlt := findIdx_quietAt_lt accesses (show 99 ≤ 100 by omega)
  have hany := findIdx_quietAt_lt accesses (le_refl 100)
  simp only [Fin.is_lt, true_and] at hany
  rw [← hlt]
  rw [← hany] at hwithdrawn
  constructor
  · intro hfaithful
    by_contra hnot
    by_cases hlast : (List.ofFn accesses).findIdx quietAt = 99
    · rw [if_pos hlast] at hverdict
      have hsuccess := (hfaithful.success.mpr (hwithdrawn.mpr (by omega))).1
      rw [hverdict] at hsuccess
      exact absurd hsuccess (by decide)
    · rw [if_neg hlast] at hverdict
      have hfailure := (hfaithful.failure (fun hw => by have := hwithdrawn.mp hw; omega)).1
      rw [hverdict.1] at hfailure
      exact absurd hfailure (by decide)
  · intro hquiet
    have hw := hwithdrawn.mpr (by omega)
    rw [if_neg (by omega)] at hverdict
    exact ⟨⟨fun _ => hw, fun _ => hverdict⟩, fun hnot => absurd hw hnot⟩

end Cache

/-! ## A grant that is in use -/

/-- A client has one page granted to domain 1. -/
def oneGrant {ι : Type*} [NeZero n] (i : ι) : List (Act n ι) :=
  [.createCache i 0 0 true true ⟨true, true, [], true⟩, .permit i 0 (page 4096) 1 500 false]

/-- The state after `oneGrant`. -/
theorem reached_oneGrant : ∃ (s : State 1 (Fin 1)) (c : ClientCache 1),
    guardedRun step Managed (init 1 (Fin 1) (initContext 4 (fun _ => ⟨none, fun _ => .zero⟩)
      (fun _ => ⟨0, .zero⟩) fun k => ⟨some (100 + k), .success, true⟩)) (oneGrant 0) = some s ∧
    s.caches 0 = some c ∧ InUse c.Cache c.permitted ∧ 4144 ∈ c.permitted ∧
    s.context.grant (s.context.Object 4144).Reference = ⟨1, 1, 500⟩ := by
  obtain ⟨s, hs, hstate⟩ := (Option.any_eq_true (fun s : State 1 (Fin 1) =>
      decide ((∃ c ∈ s.caches 0, 4144 ∈ c.permitted) ∧
        s.context.grant (s.context.Object 4144).Reference = ⟨1, 1, 500⟩))
    (guardedRun step Managed (init 1 (Fin 1) (initContext 4 (fun _ => ⟨none, fun _ => .zero⟩)
      (fun _ => ⟨0, .zero⟩) fun k => ⟨some (100 + k), .success, true⟩)) (oneGrant 0))).mp
      (by decide +kernel)
  obtain ⟨⟨c, hc, hmem⟩, hgrant⟩ := of_decide_eq_true hstate
  have hinv : Inv s := (reaches_of_guardedRun hs).invariant (inv_init (by decide) _ _ _)
    fun s a t hs hG hstep => hs.step hG hstep
  exact ⟨s, c, hs, hc, (hinv.caches 0 c hc).1, hmem, hgrant⟩

/-- A page that is read until the last but one attempt: the function revokes the grant. -/
theorem revoke_faithful_iff_oneGrant : ∃ (s : State 1 (Fin 1)) (c : ClientCache 1),
    guardedRun step Managed (init 1 (Fin 1) (initContext 4 (fun _ => ⟨none, fun _ => .zero⟩)
      (fun _ => ⟨0, .zero⟩) fun k => ⟨some (100 + k), .success, true⟩)) (oneGrant 0) = some s ∧
    s.caches 0 = some c ∧ ∃ exchange status cache' ctx',
      gnttabRevoke c.Cache 0 4144 (fun k => (⟨true, false⟩, ⟨decide (k.val ≠ 98), false⟩)) s.context =
        (exchange, some (status, cache', ctx')) ∧
      Faithful 4144 s.context exchange status cache' ctx' := by
  obtain ⟨s, c, hs, hc, hinUse, hmem, hgrant⟩ := reached_oneGrant
  have hpermit : Permitting (s.context.grant (s.context.Object 4144).Reference).flags := by
    rw [hgrant]
    decide
  obtain ⟨exchange, status, cache', ctx', hrevoke, hiff⟩ := revoke_faithful_iff hinUse hmem 0
    (fun k => (⟨true, false⟩, ⟨decide (k.val ≠ 98), false⟩)) hpermit
  have hquiet : ∃ k : Fin 100, k.val < 99 ∧ (⟨decide (k.val ≠ 98), false⟩ : Access) = .quiet :=
    ⟨98, by decide, by decide⟩
  exact ⟨s, c, hs, hc, exchange, status, cache', ctx', hrevoke, hiff.mpr hquiet⟩

/-- The other domain reads the page all the time: the function says that it has revoked the grant. -/
theorem revoke_not_faithful_of_reading : ∃ (s : State 1 (Fin 1)) (c : ClientCache 1),
    guardedRun step Managed (init 1 (Fin 1) (initContext 4 (fun _ => ⟨none, fun _ => .zero⟩)
      (fun _ => ⟨0, .zero⟩) fun k => ⟨some (100 + k), .success, true⟩)) (oneGrant 0) = some s ∧
    s.caches 0 = some c ∧ ∃ exchange status cache' ctx',
      gnttabRevoke c.Cache 0 4144 (fun _ => (⟨true, false⟩, ⟨true, false⟩)) s.context =
        (exchange, some (status, cache', ctx')) ∧
      status = .success ∧ ¬ Withdrawn exchange ∧
      ¬ Faithful 4144 s.context exchange status cache' ctx' := by
  obtain ⟨s, c, hs, hc, hinUse, hmem, hgrant⟩ := reached_oneGrant
  have hpermit : Permitting (s.context.grant (s.context.Object 4144).Reference).flags := by
    rw [hgrant]
    decide
  have hreading : (⟨true, false⟩ : Access) ≠ .quiet := by decide
  obtain ⟨exchange, status, cache', ctx', hrevoke, hsuccess, hnot⟩ := gnttabRevoke_of_busy hinUse hmem 0
    (fun _ => (⟨true, false⟩, ⟨true, false⟩)) hpermit fun _ => hreading
  refine ⟨s, c, hs, hc, exchange, status, cache', ctx', hrevoke, hsuccess, hnot, fun hfaithful => ?_⟩
  have hfailure := (hfaithful.failure hnot).1
  rw [hsuccess] at hfailure
  exact absurd hfailure (by decide)

end XenBus.Gnttab
