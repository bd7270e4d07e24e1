import XenBus.Registry.Strings
import XenBus.Strtok
import Mathlib.Data.Finset.Lattice.Fold
import Mathlib.Order.Lattice.Nat

/-!
# Creating a path of the registry

`RegistryCreateKey` (`registry.c`) creates the keys of a path one under the other, each with the handle of the one
before, which it then closes. The variable `Parent` is in turn the handle of the caller, that of the root, and that
of each key but the last; what must not be closed is told by comparing it with `Root`.

`Owns` says which of the handles that have been opened are not closed yet, and `registryCreateKey_spec` that this
is the handle of the last key, if the call succeeds, and none if it fails. `Fails` are the reasons for which it can
fail: no memory, a root that cannot be opened, a path without a key, and a key that the kernel does not create.
-/

namespace XenBus.Registry

open Terminated Tokens Ansi Strtok

/-! ## Handles -/

/-- What has been done with handles. -/
inductive Event where
  | opened (handle : ℕ)
  | created (Parent : ℕ) (name : List UInt16) (handle : ℕ)
  | closed (handle : ℕ)

/-- The handles that are open, and what has been done so far. -/
structure Keys where
  opened : Finset ℕ
  events : List Event

/-- What the kernel answers: a handle that is neither `NULL`, which is 0, nor open, or none. The answer may depend
on all that has been done. The name of a key has 255 characters at most. -/
structure Kernel where
  zwOpenKey : Keys → ℕ → List UInt16 → Option ℕ
  zwCreateKey : Keys → ℕ → List UInt16 → ℕ → Option ℕ
  zwOpenKey_new : ∀ keys Parent name Key, zwOpenKey keys Parent name = some Key → Key ≠ 0 ∧ Key ∉ keys.opened
  zwCreateKey_new : ∀ keys Parent name Options Key, zwCreateKey keys Parent name Options = some Key →
    Key ≠ 0 ∧ Key ∉ keys.opened
  length_le : ∀ keys Parent name Options Key, 92 ∉ name → zwCreateKey keys Parent name Options = some Key →
    name.length ≤ 255

/-- `ZwClose`. A handle that is not open cannot be closed. -/
def zwClose (handle : ℕ) (keys : Keys) : Option Keys :=
  if handle ∈ keys.opened then some ⟨keys.opened.erase handle, keys.events ++ [.closed handle]⟩ else none

/-- `if (Parent != Root) ZwClose(Parent)`. -/
def closeParent (Root Parent : ℕ) (keys : Keys) : Option Keys :=
  if Parent ≠ Root then zwClose Parent keys else some keys

/-! ## The functions -/

/-- `UNICODE_STRING`: the lengths are `USHORT`s and count bytes, and there need not be a `NUL`. -/
structure UnicodeString where
  Buffer : List UInt16
  MaximumLength : ℕ
  length_le : 2 * Buffer.length ≤ MaximumLength
  lt : MaximumLength < 65536

/-- `L"\\Registry\\Machine\\"`. -/
def root : List UInt16 := [92, 82, 101, 103, 105, 115, 116, 114, 121, 92, 77, 97, 99, 104, 105, 110, 101, 92]

/-- `L"\\"`. -/
def separator : List UInt16 := [92]

def lower (c : UInt16) : UInt16 := if 65 ≤ c ∧ c ≤ 90 then c + 32 else c

/-- `_wcsnicmp(Path, Prefix, Length) == 0`. -/
def wcsnicmp : List UInt16 → List UInt16 → ℕ → Option Bool
  | _, _, 0 => some true
  | c :: Path, d :: Prefix, n + 1 =>
    if lower c ≠ lower d then some false else if c = 0 then some true else wcsnicmp Path Prefix n
  | _, _, _ + 1 => none

/-- `RegistryOpenKey`. -/
def registryOpenKey (kernel : Kernel) (Parent : ℕ) (Path : List UInt16) (keys : Keys) : Option ℕ × Keys :=
  match kernel.zwOpenKey keys Parent Path with
  | none => (none, keys)
  | some Key => (some Key, ⟨insert Key keys.opened, keys.events ++ [.opened Key]⟩)

/-- `RegistryOpenRoot`: the root and where the path under it begins. -/
def registryOpenRoot (kernel : Kernel) (Path : List UInt16) (keys : Keys) : Option (Option (ℕ × ℕ) × Keys) :=
  let Length := root.length
  (wcsnicmp Path root Length).map fun equal =>
    if equal = false then (none, keys)
    else match registryOpenKey kernel 0 (rtlInitUnicodeString root) keys with
      | (none, keys) => (none, keys)
      | (some Parent, keys) => (some (Parent, Length), keys)

/-- The loop of `RegistryCreateKey`, and `fail4`. -/
def createKeys (kernel : Kernel) (Options Root : ℕ) (Buffer : List UInt16) (Context : Option ℕ)
    (ChildName Parent : ℕ) (keys : Keys) : Option (Option ℕ × Keys) :=
  match string (Buffer.drop ChildName) with
  | none => none
  | some name =>
    let Unicode := rtlInitUnicodeString name
    match kernel.zwCreateKey keys Parent Unicode Options with
    | none => (closeParent Root Parent keys).map fun keys => (none, keys)
    | some Child =>
      let keys : Keys := ⟨insert Child keys.opened, keys.events ++ [.created Parent Unicode Child]⟩
      match _h : wcstokR none separator Context Buffer with
      | none => none
      | some (ChildName, Context, Buffer) =>
        match closeParent Root Parent keys with
        | none => none
        | some keys =>
          match ChildName with
          | none => if Child = 0 then none else some (some Child, keys)
          | some ChildName => createKeys kernel Options Root Buffer Context ChildName Child keys
termination_by Buffer.length - Context.getD 0
decreasing_by exact strtok_lt _h

/-- `RegistryCreateKey` from the first `__wcstok_r` on, without the buffer being freed: `ChildPath` is under
`Parent`. -/
def createPath (kernel : Kernel) (Options Root : ℕ) (Buffer : List UInt16) (Parent ChildPath : ℕ) (keys : Keys) :
    Option (Option ℕ × Keys) :=
  (wcstokR (some ChildPath) separator none Buffer).bind fun (ChildName, Context, Buffer) =>
    match ChildName with
    | none => (closeParent Root Parent keys).map fun keys => (none, keys)
    | some ChildName => createKeys kernel Options Root Buffer Context ChildName Parent keys

/-- `RegistryCreateKey`. -/
def registryCreateKey (kernel : Kernel) (answers : ℕ → Bool) (Parent : ℕ) (Path : UnicodeString) (Options : ℕ)
    (keys : Keys) (pool : Ledger) : Option (Option ℕ × Keys × Ledger) :=
  match allocatePoolWithTag answers (Path.MaximumLength + 2) pool with
  | (none, pool) => some (none, keys, pool)
  | (some block, pool) =>
    (BoundedBuffer.write (wchars block.bytes) 0 Path.Buffer).bind fun Buffer =>
      let Root := Parent
      (if Parent ≠ 0 then some (some (Parent, 0), keys) else registryOpenRoot kernel Buffer keys).bind
        fun (opened, keys) =>
          match opened with
          | none => (pool.give block.number).map fun pool => (none, keys, pool)
          | some (Parent, ChildPath) =>
            (createPath kernel Options Root Buffer Parent ChildPath keys).bind fun (Key, keys) =>
              (pool.give block.number).map fun pool => (Key, keys, pool)

/-! ## What is open -/

/-- The handles that have been opened, in order. -/
def handles (events : List Event) : List ℕ :=
  events.filterMap fun
    | .opened handle => some handle
    | .created _ _ handle => some handle
    | .closed _ => none

/-- The handles that have been closed, in order. -/
def closed (events : List Event) : List ℕ :=
  events.filterMap fun
    | .closed handle => some handle
    | _ => none

/-- The keys that have been created: under which one, the name, and the handle. -/
def created (events : List Event) : List (ℕ × List UInt16 × ℕ) :=
  events.filterMap fun
    | .created Parent name handle => some (Parent, name, handle)
    | _ => none

/-- Since `others` were open, each handle that has been opened has been closed once, but for those of `own`, which
are open; none of `others` has been closed. -/
structure Owns (others : Finset ℕ) (keys : Keys) (own : List ℕ) : Prop where
  balance : closed keys.events ++ own = handles keys.events
  opened : keys.opened = others ∪ own.toFinset
  nodup : own.Nodup
  own_new : ∀ handle ∈ own, handle ∉ others
  closed_new : ∀ handle ∈ closed keys.events, handle ∉ others

/-- The keys have been created one under the other, the first under `Parent`; `Key` is the handle of the last. -/
inductive Chain : ℕ → List (List UInt16) → List (ℕ × List UInt16 × ℕ) → ℕ → Prop
  | nil (Key : ℕ) : Chain Key [] [] Key
  | cons {Parent Child Key : ℕ} {name : List UInt16} {names : List (List UInt16)}
      {keys : List (ℕ × List UInt16 × ℕ)} (h : Chain Child names keys Key) :
      Chain Parent (name :: names) ((Parent, name, Child) :: keys) Key

variable {others : Finset ℕ} {keys : Keys} {own : List ℕ} {handle Root Parent Key : ℕ}

theorem owns_start (others : Finset ℕ) : Owns others ⟨others, []⟩ [] :=
  ⟨rfl, by simp, List.nodup_nil, by simp, by simp [closed]⟩

/-- A handle is opened. -/
theorem Owns.insert (h : Owns others keys own) (hnew : handle ∉ keys.opened) (event : Event)
    (hclosed : closed [event] = []) (hhandles : handles [event] = [handle]) :
    Owns others ⟨insert handle keys.opened, keys.events ++ [event]⟩ (own ++ [handle]) := by
  have hclosed' : closed (keys.events ++ [event]) = closed keys.events := by
    rw [closed, List.filterMap_append, ← closed, ← closed, hclosed, List.append_nil]
  have hnotin : handle ∉ others ∧ handle ∉ own := by
    rw [h.opened, Finset.mem_union, List.mem_toFinset, not_or] at hnew
    exact hnew
  refine ⟨?_, ?_, ?_, ?_, ?_⟩
  · rw [hclosed', ← List.append_assoc, h.balance, ← hhandles, handles, handles, handles, List.filterMap_append]
  · rw [h.opened]
    ext i
    simp
  · rw [← List.concat_eq_append]
    exact h.nodup.concat hnotin.2
  · exact List.forall_mem_append.mpr ⟨h.own_new, List.forall_mem_singleton.mpr hnotin.1⟩
  · rw [hclosed']
    exact h.closed_new

/-- The handle that has been open for the longest time is closed. -/
theorem Owns.close (h : Owns others keys (handle :: own)) :
    ∃ keys', zwClose handle keys = some keys' ∧ keys'.events = keys.events ++ [.closed handle] ∧
      Owns others keys' own := by
  have hmem : handle ∈ keys.opened := by
    rw [h.opened]
    simp
  obtain ⟨hhandle, hnodup⟩ := List.nodup_cons.mp h.nodup
  obtain ⟨hnew, hown_new⟩ := List.forall_mem_cons.mp h.own_new
  have hclosed : closed (keys.events ++ [.closed handle]) = closed keys.events ++ [handle] :=
    List.filterMap_append
  refine ⟨_, if_pos hmem, rfl, ?_, ?_, hnodup, hown_new, ?_⟩
  · have hhandles : handles (keys.events ++ [.closed handle]) = handles keys.events := by
      rw [handles, List.filterMap_append, ← handles]
      exact List.append_nil _
    rw [hclosed, hhandles, ← h.balance, List.append_assoc, List.singleton_append]
  · rw [h.opened]
    ext i
    simp only [List.toFinset_cons, Finset.mem_erase, Finset.mem_union, Finset.mem_insert, List.mem_toFinset]
    constructor
    · tauto
    · rintro (hi | hi)
      · exact ⟨fun heq => hnew (heq ▸ hi), .inl hi⟩
      · exact ⟨fun heq => hhandle (heq ▸ hi), .inr (.inr hi)⟩
  · rw [hclosed]
    exact List.forall_mem_append.mpr ⟨h.closed_new, List.forall_mem_singleton.mpr hnew⟩

/-- What the loop owns: the handle of the key before, but not that of the caller. -/
def current (Root Parent : ℕ) : List ℕ := if Parent = Root then [] else [Parent]

theorem Owns.closeParent (h : Owns others keys (current Root Parent ++ own)) :
    ∃ keys', closeParent Root Parent keys = some keys' ∧ keys.events <+: keys'.events ∧
      created keys'.events = created keys.events ∧ handles keys'.events = handles keys.events ∧
      Owns others keys' own := by
  rcases eq_or_ne Parent Root with rfl | hne
  · rw [current, if_pos rfl, List.nil_append] at h
    exact ⟨keys, if_neg (not_not_intro rfl), List.prefix_rfl, rfl, rfl, h⟩
  · rw [current, if_neg hne, List.singleton_append] at h
    obtain ⟨keys', hclose, hevents, howns⟩ := h.close
    refine ⟨keys', (if_pos hne).trans hclose, ⟨_, hevents.symm⟩, ?_, ?_, howns⟩
    · rw [hevents, created, List.filterMap_append, ← created]
      exact List.append_nil _
    · rw [hevents, handles, List.filterMap_append, ← handles]
      exact List.append_nil _

/-! ## The loop -/

variable {kernel : Kernel} {Options ChildName Context : ℕ} {Buffer text name : List UInt16}
  {names : List (List UInt16)}

/-- A key is created, and `Parent` closed: what the loop owns then is the handle of the key. -/
theorem create_step {Child : ℕ} (hRoot : Root = 0 ∨ Root ∈ others)
    (hseparates : ∀ c ∈ name, separates separator c = false) (howns : Owns others keys (current Root Parent))
    (hcreate : kernel.zwCreateKey keys Parent (rtlInitUnicodeString name) Options = some Child) :
    ∃ keys', closeParent Root Parent
        ⟨insert Child keys.opened, keys.events ++ [.created Parent (rtlInitUnicodeString name) Child]⟩ = some keys' ∧
      created keys'.events = created keys.events ++ [(Parent, name, Child)] ∧
      handles keys'.events = handles keys.events ++ [Child] ∧
      Owns others keys' (current Root Child) ∧ Child ≠ 0 ∧ Child ≠ Root := by
  obtain ⟨hzero, hnew⟩ := kernel.zwCreateKey_new _ _ _ _ _ hcreate
  have hname : rtlInitUnicodeString name = name := by
    have hle := kernel.length_le _ _ _ _ _ (fun hmem => ?_) hcreate
    · rw [rtlInitUnicodeString, List.length_take] at hle
      exact List.take_of_length_le (by omega)
    · have hfalse := hseparates _ (List.mem_of_mem_take hmem)
      simp [separates, separator] at hfalse
  have hChild : Child ≠ Root := by
    rintro rfl
    rcases hRoot with hRoot | hRoot
    · exact hzero hRoot
    · rw [howns.opened] at hnew
      exact hnew (Finset.mem_union_left _ hRoot)
  rw [hname]
  have hinsert := howns.insert hnew (.created Parent name Child) rfl rfl
  obtain ⟨keys', hclose, -, hcreated, hhandles, howns'⟩ := hinsert.closeParent
  refine ⟨keys', hclose, ?_, ?_, ?_, hzero, hChild⟩
  · rw [hcreated, created, List.filterMap_append]
    rfl
  · rw [hhandles, handles, List.filterMap_append]
    rfl
  · rwa [current, if_neg hChild]

/-- The loop after a key has been created. -/
theorem createKeys_eq {Child : ℕ} {next Context' : Option ℕ} {Buffer' : List UInt16} {keys' : Keys}
    (hname : string (Buffer.drop ChildName) = some name)
    (hcreate : kernel.zwCreateKey keys Parent (rtlInitUnicodeString name) Options = some Child)
    (hcall : strtok none separator (some Context) Buffer = some (next, Context', Buffer'))
    (hclose : closeParent Root Parent
      ⟨insert Child keys.opened, keys.events ++ [.created Parent (rtlInitUnicodeString name) Child]⟩ = some keys') :
    createKeys kernel Options Root Buffer (some Context) ChildName Parent keys =
      if next.isNone then (if Child = 0 then none else some (some Child, keys'))
      else createKeys kernel Options Root Buffer' Context' (next.getD 0) Child keys' := by
  rw [createKeys, hname]
  simp only [hcreate]
  split
  · rename_i hnone
    cases hnone.symm.trans hcall
  · rename_i ChildName Context Buffer hsome
    obtain ⟨rfl, rfl, rfl⟩ : ChildName = next ∧ Context = Context' ∧ Buffer = Buffer' := by
      simpa using hsome.symm.trans hcall
    rw [hclose]
    cases ChildName <;> rfl

/-- How far the loop has come along the names: it returns the handle of the last key, or there was no name, or the
kernel did not create the next key when it was asked. -/
inductive Comes (kernel : Kernel) (Options : ℕ) (keys keys' : Keys) (Parent : ℕ) :
    List (List UInt16) → List (ℕ × List UInt16 × ℕ) → Option ℕ → Prop
  | last {names : List (List UInt16)} {made : List (ℕ × List UInt16 × ℕ)} {Key : ℕ} (hne : names ≠ [])
    (h : Chain Parent names made Key) : Comes kernel Options keys keys' Parent names made (some Key)
  | nothing : Comes kernel Options keys keys' Parent [] [] none
  | refused {names names' : List (List UInt16)} {name : List UInt16} {made : List (ℕ × List UInt16 × ℕ)} {Key : ℕ}
    {asked : Keys} (h : Chain Parent names made Key) (hevents : asked.events <+: keys'.events)
    (hcreated : created asked.events = created keys.events ++ made)
    (hnone : kernel.zwCreateKey asked Key (rtlInitUnicodeString name) Options = none) :
    Comes kernel Options keys keys' Parent (names ++ name :: names') made none

theorem Comes.of_some {keys' : Keys} {made : List (ℕ × List UInt16 × ℕ)}
    (h : Comes kernel Options keys keys' Parent names made (some Key)) : names ≠ [] ∧ Chain Parent names made Key := by
  cases h with
  | last hne hchain => exact ⟨hne, hchain⟩

theorem Comes.of_none {keys' : Keys} {made : List (ℕ × List UInt16 × ℕ)}
    (h : Comes kernel Options keys keys' Parent names made none) :
    names = [] ∨ ∃ names₁ name names₂ Key asked, names = names₁ ++ name :: names₂ ∧ Chain Parent names₁ made Key ∧
      asked.events <+: keys'.events ∧ created asked.events = created keys.events ++ made ∧
      kernel.zwCreateKey asked Key (rtlInitUnicodeString name) Options = none := by
  cases h with
  | nothing => exact .inl rfl
  | refused hchain hevents hcreated hnone => exact .inr ⟨_, _, _, _, _, rfl, hchain, hevents, hcreated, hnone⟩

/-- What the loop does from a key on: it returns the handle of the last one, or closes what it owns. -/
def Creates (kernel : Kernel) (Options : ℕ) (others : Finset ℕ) (keys : Keys) (Parent : ℕ)
    (names : List (List UInt16)) (result : Option (Option ℕ × Keys)) : Prop :=
  ∃ Key keys' made, result = some (Key, keys') ∧ Owns others keys' Key.toList ∧
    created keys'.events = created keys.events ++ made ∧
    handles keys'.events = handles keys.events ++ made.map (·.2.2) ∧
    Comes kernel Options keys keys' Parent names made Key

/-- A key has been created, and then the others. -/
theorem Comes.cons {keys₁ keys' : Keys} {Child : ℕ} {made : List (ℕ × List UInt16 × ℕ)} {Key : Option ℕ}
    (h : Comes kernel Options keys₁ keys' Child names made Key) (hne : names ≠ [])
    (hcreated : created keys₁.events = created keys.events ++ [(Parent, name, Child)]) :
    Comes kernel Options keys keys' Parent (name :: names) ((Parent, name, Child) :: made) Key := by
  cases h with
  | last _ hchain => exact .last (List.cons_ne_nil _ _) hchain.cons
  | nothing => exact absurd rfl hne
  | refused hchain hevents hasked hnone =>
    refine .refused hchain.cons hevents ?_ hnone
    rw [hasked, hcreated, List.append_assoc]
    rfl

/-- `fail4`. -/
theorem createKeys_of_none (hname : string (Buffer.drop ChildName) = some name)
    (howns : Owns others keys (current Root Parent))
    (hcreate : kernel.zwCreateKey keys Parent (rtlInitUnicodeString name) Options = none) :
    Creates kernel Options others keys Parent (name :: names)
      (createKeys kernel Options Root Buffer (some Context) ChildName Parent keys) := by
  rw [← List.append_nil (current Root Parent)] at howns
  obtain ⟨keys', hclose, hevents, hcreated, hhandles, howns'⟩ := howns.closeParent
  rw [createKeys, hname]
  refine ⟨none, keys', [], by simp [hcreate, hclose], howns', ?_, ?_, ?_⟩
  · rw [hcreated, List.append_nil]
  · rw [hhandles, List.map_nil, List.append_nil]
  · have hrefused : Comes kernel Options keys keys' Parent ([] ++ name :: names) [] none :=
      .refused (.nil Parent) hevents (List.append_nil _).symm hcreate
    exact hrefused

/-- **The loop** creates a key for each token. -/
theorem createKeys_spec (kernel : Kernel) (Options : ℕ) (hRoot : Root = 0 ∨ Root ∈ others)
    (hunread : Unread Buffer Context text) (hnames : tokens (separates separator) text = names)
    (hname : string (Buffer.drop ChildName) = some name) (hseparates : ∀ c ∈ name, separates separator c = false)
    (howns : Owns others keys (current Root Parent)) :
    Creates kernel Options others keys Parent (name :: names)
      (createKeys kernel Options Root Buffer (some Context) ChildName Parent keys) := by
  induction names generalizing Buffer Context text ChildName name Parent keys with
  | nil =>
    cases hcreate : kernel.zwCreateKey keys Parent (rtlInitUnicodeString name) Options with
    | none => exact createKeys_of_none hname howns hcreate
    | some Child =>
      obtain ⟨keys', hclose, hcreated, hhandles, howns', hzero, hChild⟩ := create_step hRoot hseparates howns hcreate
      rcases strtok_spec separator hunread with ⟨-, hcall⟩ | ⟨t, text', Token, Context', Buffer', htokens, -⟩
      · rw [createKeys_eq hname hcreate hcall hclose, Option.isNone_none, if_pos rfl, if_neg hzero]
        rw [current, if_neg hChild] at howns'
        exact ⟨some Child, keys', _, rfl, howns', hcreated, hhandles,
          .last (List.cons_ne_nil _ _) (.cons (.nil Child))⟩
      · rw [hnames] at htokens
        cases htokens
  | cons next names ih =>
    cases hcreate : kernel.zwCreateKey keys Parent (rtlInitUnicodeString name) Options with
    | none => exact createKeys_of_none hname howns hcreate
    | some Child =>
      obtain ⟨keys', hclose, hcreated, hhandles, howns', -⟩ := create_step hRoot hseparates howns hcreate
      rcases strtok_spec separator hunread with
        ⟨hnil, -⟩ | ⟨t, text', Token, Context', Buffer', htokens, hcall, hunread', hname', hseparates', -⟩
      · rw [hnames] at hnil
        cases hnil
      · rw [hnames] at htokens
        obtain ⟨rfl, hnames'⟩ := List.cons.inj htokens
        obtain ⟨Key, keys'', made, heq, howns'', hmade, hmade', hcomes⟩ :=
          ih hunread' hnames'.symm hname' hseparates' howns'
        rw [createKeys_eq hname hcreate hcall hclose, Option.isNone_some, if_neg (by decide), Option.getD_some, heq]
        refine ⟨Key, keys'', _, rfl, howns'', ?_, ?_, hcomes.cons (List.cons_ne_nil _ _) hcreated⟩
        · rw [hmade, hcreated, List.append_assoc]
          rfl
        · rw [hmade', hhandles, List.append_assoc]
          rfl

theorem createPath_spec (kernel : Kernel) (Options : ℕ) (hRoot : Root = 0 ∨ Root ∈ others)
    (hunread : Unread Buffer Context text) (howns : Owns others keys (current Root Parent)) :
    Creates kernel Options others keys Parent (tokens (separates separator) text)
      (createPath kernel Options Root Buffer Parent Context keys) := by
  rw [createPath, wcstokR, strtok_some]
  rcases strtok_spec separator hunread with
    ⟨hnil, hcall⟩ | ⟨t, text', Token, Context', Buffer', htokens, hcall, hunread', hname, hseparates, -⟩
  · -- `fail3`
    rw [← List.append_nil (current Root Parent)] at howns
    obtain ⟨keys', hclose, -, hcreated, hhandles, howns'⟩ := howns.closeParent
    rw [hnil]
    refine ⟨none, keys', [], by simp [hcall, hclose], howns', ?_, ?_, .nothing⟩
    · rw [hcreated, List.append_nil]
    · rw [hhandles, List.map_nil, List.append_nil]
  · rw [hcall, htokens]
    exact createKeys_spec kernel Options hRoot hunread' rfl hname hseparates howns

/-! ## The call -/

/-- The keys of a path: what is between the separators, up to a `NUL`. -/
def components (Path : List UInt16) : List (List UInt16) :=
  tokens (separates separator) (Path.takeWhile (· ≠ 0))

theorem wchars_replicate (n : ℕ) : wchars (List.replicate n 0) = List.replicate (n / 2) 0 := by
  induction n using Nat.twoStepInduction with
  | zero => rfl
  | one => rfl
  | more n ih _ =>
    rw [List.replicate_succ, List.replicate_succ, wchars, ih, Nat.add_div_right n (by omega), List.replicate_succ]
    rfl

/-- The comparison ends at the `NUL`. -/
theorem exists_wcsnicmp (Path Prefix rest : List UInt16) :
    ∃ equal, wcsnicmp (Path ++ 0 :: rest) Prefix Prefix.length = some equal := by
  induction Prefix generalizing Path with
  | nil => exact ⟨true, by simp [wcsnicmp]⟩
  | cons d Prefix ih =>
    cases Path with
    | nil =>
      simp only [List.nil_append, List.length_cons, wcsnicmp, if_true]
      exact ⟨_, (apply_ite some _ _ _).symm⟩
    | cons c Path =>
      obtain ⟨equal, hequal⟩ := ih Path
      simp only [List.cons_append, List.length_cons, wcsnicmp, hequal]
      split_ifs
      · exact ⟨false, rfl⟩
      · exact ⟨true, rfl⟩
      · exact ⟨equal, rfl⟩

/-- A path that begins like the root is as long. -/
theorem length_le_of_wcsnicmp {Path Prefix rest : List UInt16} (hzero : ∀ d ∈ Prefix, lower d ≠ 0)
    (h : wcsnicmp (Path ++ 0 :: rest) Prefix Prefix.length = some true) : Prefix.length ≤ Path.length := by
  induction Prefix generalizing Path with
  | nil => exact Nat.zero_le _
  | cons d Prefix ih =>
    obtain ⟨hd, hzero⟩ := List.forall_mem_cons.mp hzero
    cases Path with
    | nil =>
      have hzero : lower 0 ≠ lower d := hd.symm
      rw [List.nil_append, List.length_cons, wcsnicmp, if_pos hzero] at h
      cases h
    | cons c Path =>
      rw [List.cons_append, List.length_cons, wcsnicmp] at h
      rcases eq_or_ne (lower c) (lower d) with heq | hne
      · have hc : c ≠ 0 := by
          rintro rfl
          exact hd heq.symm
        rw [if_neg (not_not_intro heq), if_neg hc] at h
        have hle := ih hzero h
        rw [List.length_cons, List.length_cons]
        omega
      · rw [if_pos hne] at h
        cases h

/-- The buffer holds the path and a `NUL`. -/
theorem write_path (Path : UnicodeString) : ∃ rest,
    BoundedBuffer.write (wchars (List.replicate (Path.MaximumLength + 2) 0)) 0 Path.Buffer =
      some (Path.Buffer ++ 0 :: rest) := by
  have hle := Path.length_le
  have hsplit : (Path.MaximumLength + 2) / 2 =
      Path.Buffer.length + (Path.MaximumLength / 2 - Path.Buffer.length + 1) := by omega
  refine ⟨List.replicate (Path.MaximumLength / 2 - Path.Buffer.length) 0, ?_⟩
  rw [wchars_replicate, hsplit, List.replicate_add, List.replicate_succ]
  exact BoundedBuffer.write_over _ _ _ List.length_replicate.symm

/-- Under which handle the first key of a path is created, and where in the path it is: the root is opened if there
is no parent. -/
def Begins (Parent top i : ℕ) (first : List ℕ) : Prop :=
  Parent ≠ 0 ∧ top = Parent ∧ i = 0 ∧ first = [] ∨ Parent = 0 ∧ top ≠ 0 ∧ i = root.length ∧ first = [top]

/-- Why the root is not opened: the path is not one under it, or the kernel does not open it. -/
def Unopened (kernel : Kernel) (Parent : ℕ) (Path : List UInt16) (others : Finset ℕ) : Prop :=
  Parent = 0 ∧ ((∃ rest, wcsnicmp (Path ++ 0 :: rest) root root.length = some false) ∨
    kernel.zwOpenKey ⟨others, []⟩ 0 (rtlInitUnicodeString root) = none)

theorem openParent_spec (kernel : Kernel) (Parent : ℕ) (Path rest : List UInt16) (others : Finset ℕ) :
    ∃ opened keys, (if Parent ≠ 0 then some (some (Parent, 0), ⟨others, []⟩)
        else registryOpenRoot kernel (Path ++ 0 :: rest) ⟨others, []⟩) = some (opened, keys) ∧
      (opened = none → Owns others keys [] ∧ Unopened kernel Parent Path others) ∧
      ∀ top i, opened = some (top, i) → i ≤ Path.length ∧ Begins Parent top i (handles keys.events) ∧
        created keys.events = [] ∧ Owns others keys (current Parent top) := by
  have hstart := owns_start others
  rcases eq_or_ne Parent 0 with rfl | hne
  · rw [if_neg (not_not_intro rfl)]
    obtain ⟨equal, hequal⟩ := exists_wcsnicmp Path root rest
    rw [registryOpenRoot, hequal, Option.map_some]
    cases equal with
    | false => exact ⟨none, _, rfl, fun _ => ⟨hstart, rfl, .inl ⟨rest, hequal⟩⟩, by simp⟩
    | true =>
      simp only [registryOpenKey]
      cases hopen : kernel.zwOpenKey ⟨others, []⟩ 0 (rtlInitUnicodeString root) with
      | none => exact ⟨none, _, rfl, fun _ => ⟨hstart, rfl, .inr hopen⟩, by simp⟩
      | some top =>
        obtain ⟨hzero, hnew⟩ := kernel.zwOpenKey_new _ _ _ _ hopen
        refine ⟨some (top, root.length), _, rfl, by simp, ?_⟩
        rintro top' i ⟨⟩
        have hroot : ∀ d ∈ root, lower d ≠ 0 := by simp [root, lower]
        refine ⟨length_le_of_wcsnicmp hroot hequal, .inr ⟨rfl, hzero, rfl, rfl⟩, rfl, ?_⟩
        rw [current, if_neg hzero]
        exact hstart.insert hnew (.opened top) rfl rfl
  · rw [if_pos hne]
    refine ⟨some (Parent, 0), _, rfl, by simp, ?_⟩
    rintro top i ⟨⟩
    refine ⟨Nat.zero_le _, .inl ⟨hne, rfl, rfl, rfl⟩, rfl, ?_⟩
    rw [current, if_pos rfl]
    exact hstart

/-- Why a call fails: there is no memory for the buffer, the root is not opened, the path has no key, or the kernel
does not create the next key when the ones before have been created. -/
inductive Fails (kernel : Kernel) (answers : ℕ → Bool) (Parent : ℕ) (Path : UnicodeString) (Options : ℕ)
    (others : Finset ℕ) (pool : Ledger) (keys : Keys) : Prop
  | memory (h : (allocatePoolWithTag answers (Path.MaximumLength + 2) pool).1 = none)
  | unopened (h : Unopened kernel Parent Path.Buffer others)
  | empty {top i : ℕ} {first : List ℕ} (hbegins : Begins Parent top i first)
    (h : components (Path.Buffer.drop i) = [])
  | refused {top i Key : ℕ} {first : List ℕ} {names names' : List (List UInt16)} {name : List UInt16} {asked : Keys}
    (hbegins : Begins Parent top i first) (hnames : components (Path.Buffer.drop i) = names ++ name :: names')
    (hchain : Chain top names (created keys.events) Key) (hevents : asked.events <+: keys.events)
    (hcreated : created asked.events = created keys.events)
    (h : kernel.zwCreateKey asked Key (rtlInitUnicodeString name) Options = none)

/-- **A path is created without a handle being lost**: what has been opened has been closed but for the handle
that is returned, the keys have been created one under the other, and there is no handle for one of the reasons of
`Fails` only. -/
theorem registryCreateKey_spec (kernel : Kernel) (answers : ℕ → Bool) (Parent : ℕ) (Path : UnicodeString)
    (Options : ℕ) (others : Finset ℕ) (pool : Ledger) (hParent : Parent ≠ 0 → Parent ∈ others) :
    ∃ Key keys pool', registryCreateKey kernel answers Parent Path Options ⟨others, []⟩ pool =
        some (Key, keys, pool') ∧
      pool'.held = pool.held ∧ Owns others keys Key.toList ∧
      (∀ k, Key = some k → ∃ top i first, Begins Parent top i first ∧
        handles keys.events = first ++ (created keys.events).map (·.2.2) ∧
        components (Path.Buffer.drop i) ≠ [] ∧
        Chain top (components (Path.Buffer.drop i)) (created keys.events) k) ∧
      (Key = none → Fails kernel answers Parent Path Options others pool keys) := by
  obtain ⟨rest, hwrite⟩ := write_path Path
  rcases allocatePoolWithTag_cases answers (Path.MaximumLength + 2) pool with ⟨pool', heq, hsame⟩ | ⟨-, heq⟩
  · exact ⟨none, _, pool', by rw [registryCreateKey, heq], hsame.held, owns_start others, by simp,
      fun _ => .memory (by rw [heq])⟩
  obtain ⟨pool', hgive, htook⟩ := ((Ledger.Took.refl pool).take).give
  obtain ⟨opened, keys, hopen, hnone, hsome⟩ := openParent_spec kernel Parent Path.Buffer rest others
  rw [registryCreateKey, heq]
  simp only [hwrite, Option.bind_some, hopen]
  cases opened with
  | none =>
    obtain ⟨howns, hunopened⟩ := hnone rfl
    exact ⟨none, keys, pool', by rw [hgive, Option.map_some], htook.held_eq, howns, by simp,
      fun _ => .unopened hunopened⟩
  | some opened =>
    obtain ⟨top, i⟩ := opened
    obtain ⟨hi, hbegins, hcreated, howns⟩ := hsome top i rfl
    have hRoot : Parent = 0 ∨ Parent ∈ others := (eq_or_ne Parent 0).imp_right hParent
    obtain ⟨Key, keys', made, hcreates, howns', hmade, hhandles, hcomes⟩ :=
      createPath_spec kernel Options hRoot (unread_takeWhile rest hi) howns
    rw [hcreated, List.nil_append] at hmade
    subst hmade
    refine ⟨Key, keys', pool', ?_, htook.held_eq, howns', ?_, ?_⟩
    · simp only [hcreates, Option.bind_some, hgive, Option.map_some]
    · rintro k rfl
      obtain ⟨hne, hchain⟩ := hcomes.of_some
      exact ⟨top, i, _, hbegins, hhandles, hne, hchain⟩
    · rintro rfl
      rcases hcomes.of_none with hnil | ⟨names, name, names', k, asked, hnames, hchain, hevents, hasked, hrefused⟩
      · exact .empty hbegins hnil
      · rw [hcreated, List.nil_append] at hasked
        exact .refused hbegins hnames hchain hevents hasked hrefused

theorem sup_add_one_new (opened : Finset ℕ) : opened.sup id + 1 ≠ 0 ∧ opened.sup id + 1 ∉ opened := by
  refine ⟨Nat.succ_ne_zero _, fun hmem => ?_⟩
  have hle : opened.sup id + 1 ≤ opened.sup id := Finset.le_sup (f := id) hmem
  omega

/-- A handle is one more than all that are open, and a name is refused only if it is too long. -/
def counting : Kernel where
  zwOpenKey keys _ _ := some (keys.opened.sup id + 1)
  zwCreateKey keys _ name _ := if name.length ≤ 255 then some (keys.opened.sup id + 1) else none
  zwOpenKey_new keys Parent name Key h := by
    obtain rfl := Option.some.inj h
    exact sup_add_one_new keys.opened
  zwCreateKey_new keys Parent name Options Key h := by
    split_ifs at h
    obtain rfl := Option.some.inj h
    exact sup_add_one_new keys.opened
  length_le keys Parent name Options Key hname h := by
    split_ifs at h with hle
    exact hle

/-- The path `A\B`. -/
def pathAB : UnicodeString := ⟨[65, 92, 66], 6, by decide, by decide⟩

/-- The key `B` under `A`, under a key whose handle is 4: the handle of `A` is 5. -/
theorem registryCreateKey_two :
    ∃ keys pool', registryCreateKey counting (fun _ => true) 4 pathAB 0 ⟨{4}, []⟩ .empty =
        some (some 6, keys, pool') ∧
      pool'.held = ∅ ∧ Owns {4} keys [6] ∧ Chain 4 [[65], [66]] (created keys.events) 6 := by
  obtain ⟨Key, keys, pool', heq, hheld, howns, hsome, -⟩ :=
    registryCreateKey_spec counting (fun _ => true) 4 pathAB 0 {4} .empty (fun _ => by decide)
  have hKey : (registryCreateKey counting (fun _ => true) 4 pathAB 0 ⟨{4}, []⟩ .empty).map Prod.fst =
      some (some 6) := by
    decide +kernel
  rw [heq] at hKey
  obtain rfl : Key = some 6 := Option.some.inj hKey
  obtain ⟨top, i, first, hbegins, -, -, hchain⟩ := hsome 6 rfl
  obtain ⟨-, rfl, rfl, -⟩ := hbegins.resolve_right fun h => absurd h.1 (by decide)
  have hcomponents : components (pathAB.Buffer.drop 0) = [[65], [66]] := by decide +kernel
  rw [hcomponents] at hchain
  exact ⟨keys, pool', heq, hheld, howns, hchain⟩

end XenBus.Registry
