import XenBus.Fdo.Directory
import XenBus.Foundations.KeyedList
import XenBus.Store.Permissions
import XenBus.Strtok

/-!
# Distributions

Drivers list themselves under `drivers`: `FdoSetDistribution` (`fdo.c`) writes an entry with the vendor, `XENBUS` and
the version, under the first number that is free, and `FdoClearDistribution` removes the entries that
`__FdoMatchDistribution` takes for such ones.

The match compares the vendor only as far as `VENDOR_NAME_STR` goes, and the names of the entries have been
converted to upper case. `clears_iff` says for which entries just those of this driver are removed.
-/

namespace XenBus.Fdo.Distribution

open Terminated Tokens Ansi Strtok Directory KeyedList
open XenBus.Store.Permissions (decimal)

/-! ## The functions -/

/-- `isalnum`. -/
def isalnum (c : UInt8) : Bool := decide (48 ≤ c ∧ c ≤ 57 ∨ 65 ≤ c ∧ c ≤ 90 ∨ 97 ≤ c ∧ c ≤ 122)

def tolower (c : UInt8) : UInt8 := if 65 ≤ c ∧ c ≤ 90 then c + 32 else c

/-- `_stricmp(Product, Text) == 0`; only `Product` is in the buffer. -/
def stricmp : List UInt8 → List UInt8 → Option Bool
  | [], _ => none
  | c :: Product, Text =>
    if tolower c ≠ tolower (Text.headD 0) then some false
    else if c = 0 then some true else stricmp Product Text.tail

/-- `" "`. -/
def space : List UInt8 := [32]

/-- `"XENBUS"`. -/
def xenbus : List UInt8 := [88, 69, 78, 66, 85, 83]

/-- The loop of `__FdoMatchDistribution`, with `VENDOR_NAME_STR` and the token. -/
def matchVendor : List UInt8 → List UInt8 → Option Bool
  | [], _ => some true
  | _ :: _, [] => none
  | c :: Text, v :: Vendor =>
    if isalnum c = false then (if v ≠ 95 then some false else matchVendor Text Vendor)
    else if v ≠ c then some false else matchVendor Text Vendor

/-- `__FdoMatchDistribution`. -/
def fdoMatchDistribution (VENDOR_NAME_STR Buffer : List UInt8) : Option Bool :=
  (strtokR (some 0) space none Buffer).bind fun (Vendor, Context, Buffer) =>
    match Vendor with
    | none => some false
    | some Vendor =>
      (strtokR none space Context Buffer).bind fun (Product, _, Buffer) =>
        match Product with
        | none => some false
        | some Product =>
          (matchVendor VENDOR_NAME_STR (Buffer.drop Vendor)).bind fun Match =>
            (stricmp (Buffer.drop Product) xenbus).map fun equal => Match && equal

/-- An entry under `drivers`: its name and its value. -/
abbrev Entry : Type := List UInt8 × List UInt8

/-- The buffer that the store returns for a payload. -/
def payloadBuffer (payload : List UInt8) : List UInt8 := payload ++ [0, 0]

/-- The loop of `FdoClearDistribution`: what is left of the entries. -/
def clear (VENDOR_NAME_STR : List UInt8) : List AnsiString → List Entry → Option (List Entry)
  | [], _ => none
  | Distribution :: Distributions, entries =>
    match Distribution.Buffer with
    | none => some entries
    | some block =>
      (string block.bytes).bind fun name =>
        match lookup Prod.fst entries name with
        | none => clear VENDOR_NAME_STR Distributions entries
        | some entry =>
          (fdoMatchDistribution VENDOR_NAME_STR (payloadBuffer entry.2)).bind fun Match =>
            clear VENDOR_NAME_STR Distributions (if Match then unlink Prod.fst entries name else entries)

/-- `FdoClearDistribution`. -/
def fdoClearDistribution (VENDOR_NAME_STR : List UInt8) (answers : ℕ → Bool) (entries : List Entry)
    (pool : Ledger) : Option (List Entry × Ledger) :=
  (fdoMultiSzToUpcaseAnsi answers (payloadBuffer (joined (entries.map Prod.fst))) pool).bind
    fun (Distributions, _, pool) =>
      match Distributions with
      | none => some (entries, pool)
      | some Distributions =>
        (clear VENDOR_NAME_STR Distributions.Entries entries).bind fun entries =>
          (freeAnsi Distributions pool).map fun pool => (entries, pool)

abbrev MAXIMUM_INDEX : ℕ := 255

abbrev MAXNAMELEN : ℕ := 128

/-- The second loop of `FdoSetDistribution`. -/
def normalize (Vendor : List UInt8) : List UInt8 := Vendor.map fun c => if isalnum c then c else 95

/-- The value that `FdoSetDistribution` writes: `version` is that of the driver, and `attributes` `ATTRIBUTES`. The
name of the vendor is cut to the `MAXNAMELEN` bytes of `Vendor`. -/
def distribution (VENDOR_NAME_STR version attributes : List UInt8) : List UInt8 :=
  normalize (VENDOR_NAME_STR.take (MAXNAMELEN - 1)) ++ space ++ xenbus ++ space ++ version ++ space ++ attributes

/-- `FdoSetDistribution`: the entries after it, if there is a number left. -/
def fdoSetDistribution (VENDOR_NAME_STR version attributes : List UInt8) (entries : List Entry) :
    Option (List Entry) :=
  ((List.range (MAXIMUM_INDEX + 1)).find? fun Index => (lookup Prod.fst entries (decimal Index)).isNone).map
    fun Index => entries ++ [(decimal Index, distribution VENDOR_NAME_STR version attributes)]

/-! ## The match -/

variable {VENDOR_NAME_STR version attributes value t rest : List UInt8}

/-- The value begins with two tokens, of which the first has the property, and the second is `XENBUS` in upper or
lower case. -/
def Lists (P : List UInt8 → Prop) (value : List UInt8) : Prop :=
  ∃ Vendor Product others, tokens (separates space) (value.takeWhile (· ≠ 0)) = Vendor :: Product :: others ∧
    P Vendor ∧ Product.map tolower = xenbus.map tolower

/-- The entry of a driver of this vendor. -/
def Own (VENDOR_NAME_STR value : List UInt8) : Prop := Lists (· = normalize VENDOR_NAME_STR) value

/-- The entry of a driver of a vendor whose name is longer than that of this one, and begins with it. -/
def Longer (VENDOR_NAME_STR value : List UInt8) : Prop :=
  Lists (fun Vendor => normalize VENDOR_NAME_STR <+: Vendor ∧ Vendor ≠ normalize VENDOR_NAME_STR) value

theorem isalnum_ne {c : UInt8} (h : isalnum c = true) : c ≠ 0 ∧ c ≠ 32 := by
  constructor <;>
  · rintro rfl
    cases h

theorem tolower_eq_zero {c : UInt8} : tolower c = 0 ↔ c = 0 := by
  unfold tolower
  split_ifs with h
  · simp only [UInt8.le_iff_toNat_le, UInt8.reduceToNat] at h
    refine iff_of_false (fun heq => ?_) (fun heq => ?_) <;>
      have htoNat := congrArg UInt8.toNat heq <;>
      simp only [UInt8.toNat_add, UInt8.reduceToNat] at htoNat <;>
      omega
  · exact Iff.rfl

/-- One character of the vendor. -/
theorem matchVendor_cons (c v : UInt8) (Text Vendor : List UInt8) :
    matchVendor (c :: Text) (v :: Vendor) =
      if v = (if isalnum c then c else 95) then matchVendor Text Vendor else some false := by
  rw [matchVendor]
  cases isalnum c <;> simp

/-- **The vendor matches** if the token begins with the name that `FdoSetDistribution` writes. -/
theorem matchVendor_eq (ht : 0 ∉ t) (Text rest : List UInt8) :
    matchVendor Text (t ++ 0 :: rest) = some (decide (normalize Text <+: t)) := by
  induction Text generalizing t with
  | nil => simp [matchVendor, normalize]
  | cons c Text ih =>
    have hcons : normalize (c :: Text) = (if isalnum c then c else 95) :: normalize Text := rfl
    cases t with
    | nil =>
      have hne : (0 : UInt8) ≠ if isalnum c then c else 95 := by
        split_ifs with h
        · exact (isalnum_ne h).1.symm
        · decide
      rw [List.nil_append, matchVendor_cons, if_neg hne, hcons]
      simp
    | cons v t =>
      obtain ⟨-, ht⟩ := not_or.mp (mt List.mem_cons.mpr ht)
      rw [List.cons_append, matchVendor_cons, ih ht, hcons]
      rcases eq_or_ne v (if isalnum c then c else 95) with heq | hne
      · rw [if_pos heq, heq]
        simp [List.cons_prefix_cons]
      · rw [if_neg hne]
        simp [List.cons_prefix_cons, hne.symm]

theorem stricmp_eq (ht : 0 ∉ t) {Text : List UInt8} (hText : 0 ∉ Text) (rest : List UInt8) :
    stricmp (t ++ 0 :: rest) Text = some (decide (t.map tolower = Text.map tolower)) := by
  induction t generalizing Text with
  | nil =>
    rw [List.nil_append, stricmp]
    cases Text with
    | nil => simp
    | cons d Text =>
      have hd : tolower 0 ≠ tolower d := fun heq => hText (by simp [tolower_eq_zero.mp heq.symm])
      simp [hd]
  | cons c t ih =>
    obtain ⟨hc, ht⟩ := not_or.mp (mt List.mem_cons.mpr ht)
    rw [List.cons_append, stricmp, if_neg (Ne.symm hc)]
    cases Text with
    | nil =>
      have hne : tolower c ≠ tolower 0 := fun heq => hc (tolower_eq_zero.mp heq).symm
      simp [hne]
    | cons d Text =>
      obtain ⟨-, hText⟩ := not_or.mp (mt List.mem_cons.mpr hText)
      rw [List.headD_cons, List.tail_cons, ih ht hText]
      rcases eq_or_ne (tolower c) (tolower d) with heq | hne
      · simp [heq]
      · simp [hne]

/-- What the match takes for an entry of this vendor. -/
def Matched (VENDOR_NAME_STR value : List UInt8) : Prop :=
  Lists (fun Vendor => normalize VENDOR_NAME_STR <+: Vendor) value

theorem matched_iff :
    Matched VENDOR_NAME_STR value ↔ Own VENDOR_NAME_STR value ∨ Longer VENDOR_NAME_STR value := by
  constructor
  · rintro ⟨Vendor, Product, others, htokens, hbegins, hProduct⟩
    rcases eq_or_ne Vendor (normalize VENDOR_NAME_STR) with heq | hne
    · exact .inl ⟨Vendor, Product, others, htokens, heq, hProduct⟩
    · exact .inr ⟨Vendor, Product, others, htokens, ⟨hbegins, hne⟩, hProduct⟩
  · rintro (⟨Vendor, Product, others, htokens, rfl, hProduct⟩ | ⟨Vendor, Product, others, htokens, h, hProduct⟩)
    · exact ⟨_, Product, others, htokens, List.prefix_rfl, hProduct⟩
    · exact ⟨Vendor, Product, others, htokens, h.1, hProduct⟩

/-- An entry has one vendor. -/
theorem not_longer_of_own (h : Own VENDOR_NAME_STR value) : ¬ Longer VENDOR_NAME_STR value := by
  rintro ⟨Vendor, Product, others, htokens, hne, -⟩
  obtain ⟨Vendor', Product', others', htokens', rfl, -⟩ := h
  exact hne.2 (List.cons.inj (htokens.symm.trans htokens')).1

/-- **The match reads nothing but the value**, and finds what matches. -/
theorem fdoMatchDistribution_spec (VENDOR_NAME_STR value : List UInt8) :
    ∃ Match, fdoMatchDistribution VENDOR_NAME_STR (payloadBuffer value) = some Match ∧
      (Match = true ↔ Matched VENDOR_NAME_STR value) := by
  have hunread : Unread (payloadBuffer value) 0 (value.takeWhile (· ≠ 0)) :=
    unread_takeWhile [0] (Nat.zero_le value.length)
  unfold Matched Lists
  rw [fdoMatchDistribution, strtokR, strtok_some]
  rcases strtok_spec space hunread with
    ⟨hnil, hcall⟩ | ⟨Vendor, text, Token, Context, memory, htokens, hcall, hunread', hVendor, -, -, hle, -⟩
  · rw [hnil, hcall]
    exact ⟨false, rfl, by simp⟩
  rw [htokens, hcall, Option.bind_some]
  rcases strtok_spec space hunread' with
    ⟨hnil, hcall'⟩ | ⟨Product, text', Token', Context', memory', htokens', hcall', -, hProduct, -, -, -, hkept⟩
  · simp only [hnil, hcall', Option.bind_some]
    exact ⟨false, rfl, by simp⟩
  obtain ⟨hzero, rest, hdrop⟩ := string_eq_some (string_kept hVendor hkept (by omega))
  obtain ⟨hzero', rest', hdrop'⟩ := string_eq_some hProduct
  simp only [htokens', hcall', Option.bind_some, hdrop, hdrop', matchVendor_eq hzero,
    stricmp_eq hzero' (show 0 ∉ xenbus by decide), Option.map_some]
  refine ⟨_, rfl, ?_⟩
  simp

/-! ## The loop -/

variable {entries : List Entry} {made : List AnsiString} {names : List (List UInt8)} {name : List UInt8}

theorem mem_unlink {e : Entry} : e ∈ unlink Prod.fst entries name ↔ e ∈ entries ∧ e.1 ≠ name := by
  simp [unlink]

/-- **The loop removes** what matches under one of the names, and nothing else. -/
theorem clear_spec (VENDOR_NAME_STR : List UInt8) (hnames : ∀ name ∈ names, 0 ∉ name)
    (hmade : List.Forall₂ Copies names made) (hnodup : (entries.map Prod.fst).Nodup) :
    ∃ entries', clear VENDOR_NAME_STR (made ++ [.zero]) entries = some entries' ∧
      ∀ e, e ∈ entries' ↔ e ∈ entries ∧ ¬ (e.1 ∈ names ∧ Matched VENDOR_NAME_STR e.2) := by
  induction hmade generalizing entries with
  | nil => exact ⟨entries, rfl, by simp⟩
  | @cons name a names made hcopies _ ih =>
    obtain ⟨hname, hnames⟩ := List.forall_mem_cons.mp hnames
    obtain ⟨-, -, number, hBuffer⟩ := hcopies
    have hstring : string (name ++ [0]) = some name := string_append hname []
    simp only [List.cons_append, clear, hBuffer, hstring, Option.bind_some]
    cases hlookup : lookup Prod.fst entries name with
    | none =>
      have hne : ∀ e ∈ entries, e.1 ≠ name := by
        rintro e he rfl
        cases hlookup.symm.trans (lookup_eq_some hnodup he)
      obtain ⟨entries', hclear, hmem⟩ := ih hnames hnodup
      refine ⟨entries', hclear, fun e => (hmem e).trans (and_congr_right fun he => ?_)⟩
      rw [List.mem_cons, or_iff_right (hne e he)]
    | some entry =>
      have heq : ∀ e ∈ entries, e.1 = name → e = entry := by
        rintro e he rfl
        exact Option.some.inj ((lookup_eq_some hnodup he).symm.trans hlookup)
      obtain ⟨Match, hMatch, hiff⟩ := fdoMatchDistribution_spec VENDOR_NAME_STR entry.2
      simp only [hMatch, Option.bind_some]
      cases Match with
      | true =>
        have hnodup' : ((unlink Prod.fst entries name).map Prod.fst).Nodup :=
          hnodup.sublist (List.filter_sublist.map _)
        obtain ⟨entries', hclear, hmem⟩ := ih hnames hnodup'
        refine ⟨entries', by rw [if_pos rfl, hclear], fun e => ?_⟩
        rw [hmem e, mem_unlink, and_assoc, List.mem_cons]
        refine and_congr_right fun he => ?_
        have hmatched : e.1 = name → Matched VENDOR_NAME_STR e.2 := fun hname => heq e he hname ▸ hiff.mp rfl
        tauto
      | false =>
        obtain ⟨entries', hclear, hmem⟩ := ih hnames hnodup
        refine ⟨entries', by rw [if_neg (by decide), hclear], fun e => ?_⟩
        rw [hmem e, List.mem_cons]
        refine and_congr_right fun he => ?_
        have hnot : e.1 = name → ¬ Matched VENDOR_NAME_STR e.2 := by
          rintro hname hmatched
          rw [heq e he hname] at hmatched
          cases hiff.mpr hmatched
        tauto

/-! ## The call -/

theorem toupper_toupper (c : UInt8) : toupper (toupper c) = toupper c := by
  revert c
  exact forall_byte (by decide +kernel)

theorem upcase_upcase (s : List UInt8) : upcase (upcase s) = upcase s := by
  simp only [upcase, List.map_map]
  exact List.map_congr_left fun c _ => toupper_toupper c

/-- The entries under `drivers`: their names differ, are not empty and have no `NUL`, and their list is one that
`FdoMultiSzToUpcaseAnsi` is made for. -/
structure Drivers where
  entries : List Entry
  nodup : (entries.map Prod.fst).Nodup
  proper : Proper (entries.map Prod.fst)
  length_lt : (joined (entries.map Prod.fst)).length + 2 < 268435456
  short : ∀ name ∈ entries.map Prod.fst, name.length < 65535

/-- The array of the names; if there are no entries, it has one name, which is empty. -/
theorem exists_distributions (drivers : Drivers) :
    ∃ names made ansi Buffer pool', fdoMultiSzToUpcaseAnsi (fun _ => true)
        (payloadBuffer (joined (drivers.entries.map Prod.fst))) .empty = some (some ansi, Buffer, pool') ∧
      Allocated .empty pool' ansi made ∧ List.Forall₂ Copies names made ∧ (∀ name ∈ names, 0 ∉ name) ∧
      ∀ e ∈ drivers.entries, e.1 ∈ names ↔ upcase e.1 = e.1 := by
  have hlength := drivers.length_lt
  have hproper := drivers.proper
  have hshort := drivers.short
  cases hkeys : drivers.entries.map Prod.fst with
  | nil =>
    have hempty : drivers.entries = [] := List.map_eq_nil_iff.mp hkeys
    have harray : ∃ ansi made Buffer pool',
        fdoMultiSzToUpcaseAnsi (fun _ => true) (payloadBuffer (joined [])) .empty =
          some (some ansi, Buffer, pool') ∧ Allocated .empty pool' ansi made ∧ List.Forall₂ Copies [[]] made :=
      fdoMultiSzToUpcaseAnsi_array .empty List.not_mem_nil (List.forall_mem_nil _) (by decide) (by simp) []
    obtain ⟨ansi, made, Buffer, pool', heq, hallocated, hmade⟩ := harray
    exact ⟨[[]], made, ansi, Buffer, pool', heq, hallocated, hmade, by simp, by simp [hempty]⟩
  | cons key keys =>
    rw [hkeys] at hlength hproper hshort
    obtain ⟨⟨-, hkey⟩, hproper'⟩ := proper_cons.mp hproper
    obtain ⟨ansi, made, Buffer, pool', heq, hallocated, hmade⟩ :=
      fdoMultiSzToUpcaseAnsi_array .empty hkey hproper' (by omega) hshort [0]
    refine ⟨_, made, ansi, Buffer, pool', heq, hallocated, hmade, ?_, fun e he => ?_⟩
    · intro name hname
      obtain ⟨t, ht, rfl⟩ := List.mem_map.mp hname
      exact zero_mem_upcase.not.mpr (hproper t ht).2
    · rw [← hkeys]
      constructor
      · intro hmem
        obtain ⟨t, -, ht⟩ := List.mem_map.mp hmem
        rw [← ht, upcase_upcase]
      · intro hupcase
        exact List.mem_map.mpr ⟨e.1, List.mem_map_of_mem he, hupcase⟩

/-- **What the call removes**: what matches under a name without a lower-case letter. -/
theorem fdoClearDistribution_spec (VENDOR_NAME_STR : List UInt8) (drivers : Drivers) :
    ∃ entries' pool', fdoClearDistribution VENDOR_NAME_STR (fun _ => true) drivers.entries .empty =
        some (entries', pool') ∧ pool'.held = ∅ ∧
      ∀ e, e ∈ entries' ↔ e ∈ drivers.entries ∧ ¬ (upcase e.1 = e.1 ∧ Matched VENDOR_NAME_STR e.2) := by
  obtain ⟨names, made, ansi, Buffer, pool, harray, hallocated, hmade, hnames, hupcase⟩ :=
    exists_distributions drivers
  obtain ⟨entries', hclear, hmem⟩ := clear_spec VENDOR_NAME_STR hnames hmade drivers.nodup
  obtain ⟨pool', hfree, hheld⟩ := hallocated.free
  refine ⟨entries', pool', ?_, hheld, fun e => (hmem e).trans (and_congr_right fun he => ?_)⟩
  · simp only [fdoClearDistribution, harray, Option.bind_some, hallocated.Entries, hclear, hfree, Option.map_some]
  · rw [hupcase e he]

/-! ## The entries of this driver -/

/-- The entry is one that `FdoSetDistribution` writes. -/
def Written (VENDOR_NAME_STR version attributes : List UInt8) (e : Entry) : Prop :=
  e.2 = distribution VENDOR_NAME_STR version attributes ∧ ∃ Index ≤ MAXIMUM_INDEX, e.1 = decimal Index

/-- `FdoSetDistribution` adds such an entry. -/
theorem written_fdoSetDistribution {entries' : List Entry}
    (h : fdoSetDistribution VENDOR_NAME_STR version attributes entries = some entries') :
    ∃ e, Written VENDOR_NAME_STR version attributes e ∧ e.1 ∉ entries.map Prod.fst ∧
      entries' = entries ++ [e] := by
  obtain ⟨Index, hIndex, rfl⟩ := Option.map_eq_some_iff.mp h
  have hle := List.mem_range.mp (List.mem_of_find?_eq_some hIndex)
  refine ⟨_, ⟨rfl, Index, by omega, rfl⟩, fun hmem => ?_, rfl⟩
  obtain ⟨e, he, hname⟩ := List.mem_map.mp hmem
  have hfree := List.find?_some hIndex
  have hnone := Option.isNone_iff_eq_none.mp hfree
  exact absurd (List.find?_eq_none.mp hnone e he) (by simpa using hname)

theorem mem_normalize {c : UInt8} (h : c ∈ normalize t) : c ≠ 0 ∧ c ≠ 32 := by
  obtain ⟨d, -, rfl⟩ := List.mem_map.mp h
  split_ifs with hd
  · exact isalnum_ne hd
  · decide

/-- The first two tokens of what `FdoSetDistribution` writes. -/
theorem lists_distribution (hne : VENDOR_NAME_STR ≠ []) {P : List UInt8 → Prop} :
    Lists P (distribution VENDOR_NAME_STR version attributes) ↔
      P (normalize (VENDOR_NAME_STR.take (MAXNAMELEN - 1))) := by
  obtain ⟨Vendor, hVendor⟩ : ∃ Vendor, Vendor = normalize (VENDOR_NAME_STR.take (MAXNAMELEN - 1)) := ⟨_, rfl⟩
  have hne' : Vendor ≠ [] := by
    rw [hVendor]
    simpa [normalize] using hne
  have hmem : ∀ c ∈ Vendor, c ≠ 0 ∧ c ≠ 32 := fun c hc => mem_normalize (hVendor ▸ hc)
  have hsplit : distribution VENDOR_NAME_STR version attributes =
      (Vendor ++ 32 :: (xenbus ++ [32])) ++ (version ++ space ++ attributes) := by
    simp [distribution, space, hVendor]
  have hpos : ∀ c ∈ Vendor ++ 32 :: (xenbus ++ [32]), decide (c ≠ 0) = true := by
    intro c hc
    rw [List.mem_append] at hc
    refine decide_eq_true ?_
    rcases hc with hc | hc
    · exact (hmem c hc).1
    · rintro rfl
      revert hc
      decide
  have htokens : tokens (separates space) ((distribution VENDOR_NAME_STR version attributes).takeWhile (· ≠ 0)) =
      Vendor :: xenbus :: tokens (separates space) ((version ++ space ++ attributes).takeWhile (· ≠ 0)) := by
    have hstay : ∀ c ∈ Vendor, separates space c = false := fun c hc => by simp [separates, space, (hmem c hc).2]
    have hxenbus : ∀ c ∈ xenbus, separates space c = false := by simp [xenbus, separates, space]
    rw [hsplit, List.takeWhile_append_of_pos hpos, List.append_assoc, List.cons_append,
      tokens_token_append hne' hstay (by decide), List.append_assoc, List.singleton_append,
      tokens_token_append (by decide) hxenbus (by decide)]
  rw [← hVendor]
  constructor
  · rintro ⟨Vendor', Product, others, heq, hP, -⟩
    rw [htokens] at heq
    obtain ⟨rfl, -⟩ := List.cons.inj heq
    exact hP
  · intro hP
    exact ⟨Vendor, xenbus, _, htokens, hP, rfl⟩

/-- The entry that this driver writes is its own, if the name of the vendor has not been cut. -/
theorem own_distribution (hne : VENDOR_NAME_STR ≠ []) (hlength : VENDOR_NAME_STR.length < MAXNAMELEN) :
    Own VENDOR_NAME_STR (distribution VENDOR_NAME_STR version attributes) := by
  refine (lists_distribution hne).mpr ?_
  rw [List.take_of_length_le (by omega)]

/-- If it has been cut, the entry does not match. -/
theorem matched_distribution (hne : VENDOR_NAME_STR ≠ []) :
    Matched VENDOR_NAME_STR (distribution VENDOR_NAME_STR version attributes) ↔
      VENDOR_NAME_STR.length < MAXNAMELEN := by
  constructor
  · intro hmatched
    have hle := ((lists_distribution hne).mp hmatched).length_le
    simp only [normalize, List.length_map, List.length_take] at hle
    have hMAXNAMELEN : MAXNAMELEN = 128 := rfl
    omega
  · intro hlength
    exact matched_iff.mpr (.inl (own_distribution hne hlength))

/-- `FdoClearDistribution` removes the entries of this driver, and those that `FdoSetDistribution` writes are among
them. -/
def Clears (VENDOR_NAME_STR version attributes : List UInt8) (drivers : Drivers) : Prop :=
  ∃ entries' pool', fdoClearDistribution VENDOR_NAME_STR (fun _ => true) drivers.entries .empty =
      some (entries', pool') ∧ entries' ⊆ drivers.entries ∧
    (∀ e ∈ drivers.entries, e ∉ entries' ↔ Own VENDOR_NAME_STR e.2) ∧
    ∀ e ∈ drivers.entries, Written VENDOR_NAME_STR version attributes e → e ∉ entries'

/-- The entries of this driver have names without lower-case letters, under such names there is none of a vendor
whose name is longer, and what `FdoSetDistribution` writes has not been cut. -/
structure Plain (VENDOR_NAME_STR version attributes : List UInt8) (entries : List Entry) : Prop where
  upper : ∀ e ∈ entries, Own VENDOR_NAME_STR e.2 → upcase e.1 = e.1
  not_longer : ∀ e ∈ entries, upcase e.1 = e.1 → ¬ Longer VENDOR_NAME_STR e.2
  length_lt : (∃ e ∈ entries, Written VENDOR_NAME_STR version attributes e) → VENDOR_NAME_STR.length < MAXNAMELEN

/-- **The call removes the entries of this driver**, and no others, just if the entries are so. -/
theorem clears_iff (VENDOR_NAME_STR version attributes : List UInt8) (drivers : Drivers)
    (hne : VENDOR_NAME_STR ≠ []) :
    Clears VENDOR_NAME_STR version attributes drivers ↔
      Plain VENDOR_NAME_STR version attributes drivers.entries := by
  obtain ⟨entries', pool', hcall, -, hmem⟩ := fdoClearDistribution_spec VENDOR_NAME_STR drivers
  have hremoved : ∀ e ∈ drivers.entries,
      e ∉ entries' ↔ upcase e.1 = e.1 ∧ (Own VENDOR_NAME_STR e.2 ∨ Longer VENDOR_NAME_STR e.2) := by
    intro e he
    rw [hmem e, ← matched_iff]
    tauto
  constructor
  · rintro ⟨entries'', pool'', hcall', -, hown, hwritten⟩
    obtain ⟨rfl, -⟩ := Prod.mk.inj (Option.some.inj (hcall.symm.trans hcall'))
    refine ⟨fun e he h => ?_, fun e he hupper hlonger => ?_, fun ⟨e, he, h⟩ => ?_⟩
    · exact ((hremoved e he).mp ((hown e he).mpr h)).1
    · have h := (hown e he).mp ((hremoved e he).mpr ⟨hupper, .inr hlonger⟩)
      exact not_longer_of_own h hlonger
    · have hmatched := matched_iff.mpr ((hremoved e he).mp (hwritten e he h)).2
      rw [h.1] at hmatched
      exact (matched_distribution hne).mp hmatched
  · rintro ⟨hupper, hlonger, hlength⟩
    have hown : ∀ e ∈ drivers.entries, e ∉ entries' ↔ Own VENDOR_NAME_STR e.2 := by
      intro e he
      rw [hremoved e he]
      constructor
      · rintro ⟨hname, h | h⟩
        · exact h
        · exact absurd h (hlonger e he hname)
      · intro h
        exact ⟨hupper e he h, .inl h⟩
    refine ⟨entries', pool', hcall, fun e he => ((hmem e).mp he).1, hown, fun e he h => (hown e he).mpr ?_⟩
    rw [h.1]
    exact own_distribution hne (hlength ⟨e, he, h⟩)

/-! ## Other vendors -/

/-- `Xen`. -/
def xen : List UInt8 := [88, 101, 110]

/-- `Citrix XENBUS 1`, under `1`. -/
def other : Entry := ([49], [67, 105, 116, 114, 105, 120, 32, 88, 69, 78, 66, 85, 83, 32, 49])

theorem proper_both : Proper [([48] : List UInt8), [49]] :=
  proper_cons.mpr ⟨⟨by decide, by decide⟩, proper_cons.mpr ⟨⟨by decide, by decide⟩, nofun⟩⟩

/-- The entry that the driver of `Xen` has written, and that of another vendor. -/
def bothDrivers : Drivers :=
  ⟨[([48], distribution xen [49] []), other], by decide, proper_both, by decide +kernel, by decide⟩

theorem not_longer_other : ¬ Longer xen other.2 := by
  rintro ⟨Vendor, Product, others, htokens, ⟨hbegins, -⟩, -⟩
  have hother : tokens (separates space) (other.2.takeWhile (· ≠ 0)) =
      [[67, 105, 116, 114, 105, 120], xenbus, [49]] := by decide +kernel
  rw [hother] at htokens
  obtain ⟨rfl, -⟩ := List.cons.inj htokens
  revert hbegins
  decide

/-- `XenServer XENBUS 1`, under `0`. -/
def longer : Entry :=
  ([48], [88, 101, 110, 83, 101, 114, 118, 101, 114, 32, 88, 69, 78, 66, 85, 83, 32, 49])

/-- Just the entry of `XenServer`. -/
def drivers : Drivers := ⟨[longer], by decide, by simp [Proper, longer], by decide, by decide⟩

theorem longer_drivers : Longer xen longer.2 :=
  ⟨[88, 101, 110, 83, 101, 114, 118, 101, 114], xenbus, [[49]], rfl, by decide, rfl⟩

/-- The driver of `Xen` leaves the entry of another vendor alone, but not that of `XenServer`. -/
theorem clears_iff_drivers : Clears xen [49] [] bothDrivers ∧ ¬ Clears xen [49] [] drivers := by
  refine ⟨(clears_iff xen [49] [] bothDrivers (by decide)).mpr ⟨?_, ?_, fun _ => by decide⟩, fun hclears => ?_⟩
  · intro e he _
    obtain rfl | he := List.mem_cons.mp he
    · rfl
    · rw [List.mem_singleton.mp he]
      rfl
  · intro e he _
    obtain rfl | he := List.mem_cons.mp he
    · exact not_longer_of_own (own_distribution (by decide) (by decide))
    · rw [List.mem_singleton.mp he]
      exact not_longer_other
  · have hplain := (clears_iff xen [49] [] drivers (by decide)).mp hclears
    exact hplain.not_longer longer List.mem_cons_self rfl longer_drivers

/-- **The driver of `Xen` removes the entry of `XenServer`.** -/
theorem not_clears_drivers :
    ¬ ∀ VENDOR_NAME_STR version attributes drivers, VENDOR_NAME_STR ≠ [] →
      Clears VENDOR_NAME_STR version attributes drivers := by
  intro h
  obtain ⟨entries', pool', hcall, -, hown, -⟩ := h xen [49] [] drivers (by decide)
  obtain ⟨entries'', pool'', hcall', -, hmem⟩ := fdoClearDistribution_spec xen drivers
  obtain ⟨rfl, -⟩ := Prod.mk.inj (Option.some.inj (hcall.symm.trans hcall'))
  have hremoved : longer ∉ entries' := fun hin =>
    ((hmem longer).mp hin).2 ⟨rfl, matched_iff.mpr (.inr longer_drivers)⟩
  exact not_longer_of_own ((hown longer (List.mem_singleton.mpr rfl)).mp hremoved) longer_drivers

end XenBus.Fdo.Distribution
