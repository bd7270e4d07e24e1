import Mathlib.Data.List.Basic

/-!
# The filter drivers of a device class

`FiltersInstallClass` and `FiltersUninstallClass` (`xen/filters.c`), with `RegistryQuerySzValue` and
`RegistryUpdateSzValue` (`registry.c`). The `UpperFilters` of a class are a list of names in the registry. It is
read, converted to the ANSI code page, copied with the name of the driver added or left out, converted back and
written.

A query that fails is taken for the absence of the value. `safe_iff_clean` says what follows: the list
stays intact if and only if the query of an existing value does not fail where the list is written
afterwards. `lost_filters` is a run in which it does, and the other filters of the class are gone.
-/

namespace XenBus.Xen.Filters

/-! ## Data -/

/-- The characters of a string before its `NUL`. -/
abbrev Text := List Char

/-- `RtlUnicodeStringToAnsiString` and `RtlAnsiStringToUnicodeString`, for a code page of single bytes. A text of
the code page is not changed there and back. -/
structure CodePage where
  toAnsi : Text → Text
  toUnicode : Text → Text
  toAnsi_toUnicode : ∀ s, toAnsi (toUnicode s) = s

/-- A name of the registry after it has been read and written back. -/
def CodePage.convert (cp : CodePage) (s : Text) : Text := cp.toUnicode (cp.toAnsi s)

/-- The types of a value that `RegistryQuerySzValue` knows. -/
inductive SzType
  | REG_SZ
  | REG_MULTI_SZ
  deriving DecidableEq

/-- The value in the registry: absent, a list, a single text, or of another type. -/
inductive Value
  | absent
  | multiSz (list : List Text)
  | sz (text : Text)
  | other
  deriving DecidableEq

/-- The outcomes of what a call calls: of the three that open the key of the class, of the query of a
value that exists, of the allocation of the new list and of its update. -/
structure Calls where
  opens : Bool
  query : Bool
  allocate : Bool
  update : Bool

/-- `__tolower`. -/
def tolower (c : Char) : Char :=
  if c < 'A' ∨ 'Z' < c then c else Char.ofNat ('a'.toNat + c.toNat - 'A'.toNat)

/-- `_stricmp(s, s') == 0`. -/
def stricmp (s s' : Text) : Bool := s.map tolower == s'.map tolower

/-! ## The registry -/

/-- `RegistryQuerySzValue`: the type and the strings, or a failure. -/
def RegistryQuerySzValue (cp : CodePage) (query : Bool) : Value → Option (SzType × List Text)
  | .multiSz list => if query then some (.REG_MULTI_SZ, list.map cp.toAnsi) else none
  | .sz text => if query then some (.REG_SZ, [cp.toAnsi text]) else none
  | .absent | .other => none

/-- The allocation of `New` and `RegistryUpdateSzValue`: whether they succeed, and the value after them. -/
def writeBack (cp : CodePage) (calls : Calls) (value : Value) (New : List Text) : Bool × Value :=
  if calls.allocate && calls.update then (true, .multiSz (New.map cp.toUnicode)) else (false, value)

/-! ## The filters -/

/-- `FiltersInstallClass`: `NT_SUCCESS` of its status, and the value after it. -/
def FiltersInstallClass (cp : CodePage) (DriverName : Text) (calls : Calls) (value : Value) : Bool × Value :=
  if calls.opens then
    match RegistryQuerySzValue cp calls.query value with
    | some (.REG_SZ, _) => (false, value)
    | some (.REG_MULTI_SZ, Old) =>
      if Old.any (stricmp · DriverName) then (true, value)
      else writeBack cp calls value (Old ++ [DriverName])
    | none => writeBack cp calls value [DriverName]
  else (false, value)

/-- `FiltersUninstallClass`. -/
def FiltersUninstallClass (cp : CodePage) (DriverName : Text) (calls : Calls) (value : Value) : Bool × Value :=
  if calls.opens then
    match RegistryQuerySzValue cp calls.query value with
    | some (.REG_SZ, _) => (false, value)
    | some (.REG_MULTI_SZ, Old) =>
      if Old.any (stricmp · DriverName) then
        writeBack cp calls value (Old.filter fun Entry => !stricmp Entry DriverName)
      else (true, value)
    | none => (true, value)
  else (false, value)

/-! ## The lists -/

/-- The names in a value. -/
def Value.entries : Value → List Text
  | .multiSz list => list
  | _ => []

variable (cp : CodePage) (DriverName : Text)

/-- The name is that of the driver. -/
def isDriver (Entry : Text) : Bool := stricmp (cp.toAnsi Entry) DriverName

/-- The names of the other drivers. -/
def others (value : Value) : List Text := value.entries.filter fun Entry => !isDriver cp DriverName Entry

/-- How often the driver is in the list. -/
def occurrences (value : Value) : ℕ := value.entries.countP (isDriver cp DriverName)

/-- The name is a text of the code page. -/
def Representable (Entry : Text) : Prop := cp.convert Entry = Entry

/-- What is expected of an install and an uninstall, and of the one after the other. -/
structure Safe (calls calls' : Calls) (value : Value) : Prop where
  installs : others cp DriverName (FiltersInstallClass cp DriverName calls value).2 = others cp DriverName value
  installed : (FiltersInstallClass cp DriverName calls value).1 = true →
    occurrences cp DriverName (FiltersInstallClass cp DriverName calls value).2 =
      occurrences cp DriverName value + 1 ∨ 0 < occurrences cp DriverName value
  uninstalls : others cp DriverName (FiltersUninstallClass cp DriverName calls' value).2 =
    others cp DriverName value
  restored : occurrences cp DriverName value = 0 → (FiltersInstallClass cp DriverName calls value).1 = true →
    let value' := (FiltersInstallClass cp DriverName calls value).2
    (FiltersUninstallClass cp DriverName calls' value').1 = true →
      (FiltersUninstallClass cp DriverName calls' value').2.entries = value.entries

/-- The call can write. -/
def Calls.writes (calls : Calls) : Prop := calls.opens = true ∧ calls.allocate = true ∧ calls.update = true

/-- No list is written without having been read, and what is written back is in the code page. -/
structure Clean (calls calls' : Calls) (value : Value) : Prop where
  read : calls.writes → calls.query = false → others cp DriverName value = []
  representable : calls.writes → calls.query = true → occurrences cp DriverName value = 0 →
    ∀ Entry ∈ others cp DriverName value, Representable cp Entry
  representable' : calls'.writes → calls'.query = true → 0 < occurrences cp DriverName value →
    ∀ Entry ∈ others cp DriverName value, Representable cp Entry
  found : calls.writes → occurrences cp DriverName value = 0 → calls'.opens = true → calls'.query = true

/-! ## What a call writes -/

variable {cp DriverName} {calls calls' : Calls} {value : Value} {list : List Text}

theorem stricmp_self (s : Text) : stricmp s s = true := beq_self_eq_true _

/-- A name after a conversion there and back. -/
theorem isDriver_toUnicode (s : Text) : isDriver cp DriverName (cp.toUnicode s) = stricmp s DriverName := by
  rw [isDriver, cp.toAnsi_toUnicode]

theorem any_iff (list : List Text) : ((list.map cp.toAnsi).any (stricmp · DriverName)) = true ↔
    0 < occurrences cp DriverName (.multiSz list) := by
  rw [occurrences, List.countP_pos_iff, List.any_map, List.any_eq_true]
  rfl

theorem map_eq_self_iff (f : Text → Text) (list : List Text) : list.map f = list ↔ ∀ s ∈ list, f s = s := by
  have h := List.map_inj_left (l := list) (f := f) (g := id)
  rwa [List.map_id] at h

/-- The list with the driver at the end. -/
theorem written_install (list : List Text) :
    let value := Value.multiSz ((list.map cp.toAnsi ++ [DriverName]).map cp.toUnicode)
    others cp DriverName value =
        (others cp DriverName (.multiSz list)).map cp.convert ∧
      occurrences cp DriverName value = occurrences cp DriverName (.multiSz list) + 1 := by
  have hnew : isDriver cp DriverName (cp.toUnicode DriverName) = true := by
    rw [isDriver_toUnicode, stricmp_self]
  have hconv : ∀ Entry, isDriver cp DriverName (cp.toUnicode (cp.toAnsi Entry)) =
      isDriver cp DriverName Entry := fun Entry => isDriver_toUnicode _
  constructor
  · simp [others, Value.entries, hnew, List.filter_map, Function.comp_def, hconv, CodePage.convert]
  · simp [occurrences, Value.entries, hnew, List.countP_map, Function.comp_def, hconv]

/-- The list without the driver. -/
theorem written_uninstall (list : List Text) :
    ((list.map cp.toAnsi).filter fun Entry => !stricmp Entry DriverName).map cp.toUnicode =
      (others cp DriverName (.multiSz list)).map cp.convert := by
  rw [List.filter_map, List.map_map]
  rfl

theorem others_map (list : List Text) :
    others cp DriverName (.multiSz ((others cp DriverName (.multiSz list)).map cp.convert)) =
      (others cp DriverName (.multiSz list)).map cp.convert := by
  refine List.filter_eq_self.mpr fun Entry hEntry => ?_
  obtain ⟨s, hs, rfl⟩ := List.mem_map.mp hEntry
  rw [CodePage.convert, isDriver_toUnicode]
  exact (List.mem_filter.mp hs).2

/-- The conversion of the others. -/
theorem convert_iff (value : Value) :
    (others cp DriverName value).map cp.convert = others cp DriverName value ↔
      ∀ Entry ∈ others cp DriverName value, Representable cp Entry :=
  map_eq_self_iff _ _

/-- With no occurrence of the driver all are others. -/
theorem others_eq_entries (h : occurrences cp DriverName value = 0) :
    others cp DriverName value = value.entries := by
  rw [others, List.filter_eq_self]
  intro Entry hEntry
  simpa using List.countP_eq_zero.mp h Entry hEntry

/-! ## FiltersInstallClass -/

theorem writeBack_eq {New : List Text} (h : calls.writes) :
    writeBack cp calls value New = (true, .multiSz (New.map cp.toUnicode)) := by
  simp [writeBack, h.2.1, h.2.2]

theorem writeBack_failed {New : List Text} (hopens : calls.opens = true) (h : ¬ calls.writes) :
    writeBack cp calls value New = (false, value) := by
  refine if_neg fun hboth => h ?_
  rw [Bool.and_eq_true] at hboth
  exact ⟨hopens, hboth⟩

theorem install_read (hopens : calls.opens = true) (hquery : calls.query = true) (list : List Text) :
    FiltersInstallClass cp DriverName calls (.multiSz list) =
      if 0 < occurrences cp DriverName (.multiSz list) then (true, .multiSz list)
      else writeBack cp calls (.multiSz list) (list.map cp.toAnsi ++ [DriverName]) := by
  simp only [FiltersInstallClass, RegistryQuerySzValue, hopens, hquery, if_true, any_iff]

/-- The value has not been read. -/
def Unread (calls : Calls) (value : Value) : Prop := value = .absent ∨ calls.query = false

theorem unread_or_read (hvalue : value = .absent ∨ ∃ list, value = .multiSz list) (calls : Calls) :
    Unread calls value ∨ ∃ list, value = .multiSz list ∧ calls.query = true := by
  obtain rfl | ⟨list, rfl⟩ := hvalue
  · exact .inl (.inl rfl)
  · cases hquery : calls.query with
    | false => exact .inl (.inr hquery)
    | true => exact .inr ⟨list, rfl, rfl⟩

theorem ne_sz (hvalue : value = .absent ∨ ∃ list, value = .multiSz list) (text : Text) : value ≠ .sz text := by
  obtain rfl | ⟨list, rfl⟩ := hvalue
  · simp
  · simp

theorem install_unread (hvalue : ∀ text, value ≠ .sz text) (hopens : calls.opens = true)
    (hunread : Unread calls value) :
    FiltersInstallClass cp DriverName calls value = writeBack cp calls value [DriverName] := by
  obtain rfl | hquery := hunread
  · simp only [FiltersInstallClass, RegistryQuerySzValue, hopens, if_true]
  · cases value with
    | sz text => exact absurd rfl (hvalue text)
    | _ => simp [FiltersInstallClass, RegistryQuerySzValue, hopens, hquery]

/-- A call that cannot write leaves the value as it is. -/
theorem install_of_not_writes (h : ¬ calls.writes) : (FiltersInstallClass cp DriverName calls value).2 = value := by
  unfold FiltersInstallClass
  split_ifs with hopens
  · have hfailed : ∀ New, (writeBack cp calls value New).2 = value := fun New => by
      rw [writeBack_failed hopens h]
    split
    · rfl
    · split_ifs
      · rfl
      · exact hfailed _
    · exact hfailed _
  · rfl

/-- The new list, where the old one has not been read. -/
theorem install_alone (hvalue : ∀ text, value ≠ .sz text) (hwrites : calls.writes)
    (hunread : Unread calls value) :
    FiltersInstallClass cp DriverName calls value = (true, .multiSz [cp.toUnicode DriverName]) := by
  rw [install_unread hvalue hwrites.1 hunread, writeBack_eq hwrites]
  rfl

/-- The new list, where the old one has been read and does not have the driver. -/
theorem install_append (hwrites : calls.writes) (hquery : calls.query = true) (list : List Text)
    (hnone : occurrences cp DriverName (.multiSz list) = 0) :
    FiltersInstallClass cp DriverName calls (.multiSz list) =
      (true, .multiSz ((list.map cp.toAnsi ++ [DriverName]).map cp.toUnicode)) := by
  rw [install_read hwrites.1 hquery, if_neg (by omega), writeBack_eq hwrites]

theorem installs_iff (hvalue : value = .absent ∨ ∃ list, value = .multiSz list) :
    others cp DriverName (FiltersInstallClass cp DriverName calls value).2 = others cp DriverName value ↔
      (calls.writes → calls.query = false → others cp DriverName value = []) ∧
        (calls.writes → calls.query = true → occurrences cp DriverName value = 0 →
          ∀ Entry ∈ others cp DriverName value, Representable cp Entry) := by
  have halone : others cp DriverName (.multiSz [cp.toUnicode DriverName]) = [] :=
    (@written_install cp DriverName []).1
  by_cases hwrites : calls.writes
  swap
  · rw [install_of_not_writes hwrites]
    exact iff_of_true rfl ⟨fun hw => absurd hw hwrites, fun hw => absurd hw hwrites⟩
  obtain rfl | ⟨list, rfl⟩ := hvalue
  · rw [install_alone (by simp) hwrites (.inl rfl), halone]
    exact iff_of_true rfl ⟨fun _ _ => rfl, fun _ _ _ Entry hEntry => by simp [others, Value.entries] at hEntry⟩
  · cases hquery : calls.query with
    | false =>
      rw [install_alone (by simp) hwrites (.inr hquery), halone]
      constructor
      · exact fun h => ⟨fun _ _ => h.symm, by simp⟩
      · exact fun h => (h.1 hwrites rfl).symm
    | true =>
      rcases Nat.eq_zero_or_pos (occurrences cp DriverName (.multiSz list)) with hnone | hsome
      · rw [install_append hwrites hquery list hnone, (written_install list).1, convert_iff]
        constructor
        · exact fun h => ⟨by simp, fun _ _ _ => h⟩
        · exact fun h => h.2 hwrites rfl hnone
      · rw [install_read hwrites.1 hquery, if_pos hsome]
        exact iff_of_true rfl ⟨by simp, fun _ _ hnone => absurd hnone (by omega)⟩

/-- An install of a new driver that succeeds has written. -/
theorem writes_of_installed (hvalue : value = .absent ∨ ∃ list, value = .multiSz list)
    (hnone : occurrences cp DriverName value = 0)
    (h : (FiltersInstallClass cp DriverName calls value).1 = true) : calls.writes := by
  by_contra hwrites
  by_cases hopens : calls.opens = true
  · have hfailed : ∀ New, (writeBack cp calls value New).1 = true → False := fun New => by
      rw [writeBack_failed hopens hwrites]
      exact Bool.false_ne_true
    obtain hunread | ⟨list, rfl, hquery⟩ := unread_or_read hvalue calls
    · rw [install_unread (ne_sz hvalue) hopens hunread] at h
      exact hfailed _ h
    · rw [install_read hopens hquery, if_neg (by omega)] at h
      exact hfailed _ h
  · rw [FiltersInstallClass, if_neg hopens] at h
    cases h

/-- A successful install leaves the driver in the list, once more than before if it was not there. -/
theorem installed (hvalue : value = .absent ∨ ∃ list, value = .multiSz list)
    (h : (FiltersInstallClass cp DriverName calls value).1 = true) :
    occurrences cp DriverName (FiltersInstallClass cp DriverName calls value).2 =
      occurrences cp DriverName value + 1 ∨ 0 < occurrences cp DriverName value := by
  rcases Nat.eq_zero_or_pos (occurrences cp DriverName value) with hnone | hsome
  · left
    have halone : occurrences cp DriverName (.multiSz [cp.toUnicode DriverName]) = 0 + 1 :=
      (@written_install cp DriverName []).2
    have hwrites := writes_of_installed hvalue hnone h
    obtain hunread | ⟨list, rfl, hquery⟩ := unread_or_read hvalue calls
    · rw [install_alone (ne_sz hvalue) hwrites hunread, halone, hnone]
    · rw [install_append hwrites hquery list hnone, (written_install list).2]
  · exact .inr hsome

/-! ## FiltersUninstallClass -/

theorem uninstall_read (hopens : calls.opens = true) (hquery : calls.query = true) (list : List Text) :
    FiltersUninstallClass cp DriverName calls (.multiSz list) =
      if 0 < occurrences cp DriverName (.multiSz list) then
        writeBack cp calls (.multiSz list)
          ((list.map cp.toAnsi).filter fun Entry => !stricmp Entry DriverName)
      else (true, .multiSz list) := by
  simp only [FiltersUninstallClass, RegistryQuerySzValue, hopens, hquery, if_true, any_iff]

theorem uninstall_unread (hvalue : ∀ text, value ≠ .sz text) (hopens : calls.opens = true)
    (hunread : Unread calls value) : FiltersUninstallClass cp DriverName calls value = (true, value) := by
  obtain rfl | hquery := hunread
  · simp only [FiltersUninstallClass, RegistryQuerySzValue, hopens, if_true]
  · cases value with
    | sz text => exact absurd rfl (hvalue text)
    | _ => simp [FiltersUninstallClass, RegistryQuerySzValue, hopens, hquery]

theorem uninstall_of_not_writes (h : ¬ calls.writes) :
    (FiltersUninstallClass cp DriverName calls value).2 = value := by
  unfold FiltersUninstallClass
  split_ifs with hopens
  · split
    · rfl
    · split_ifs
      · rw [writeBack_failed hopens h]
      · rfl
    · rfl
  · rfl

theorem uninstall_remove (hwrites : calls.writes) (hquery : calls.query = true) (list : List Text)
    (hsome : 0 < occurrences cp DriverName (.multiSz list)) :
    FiltersUninstallClass cp DriverName calls (.multiSz list) =
      (true, .multiSz ((others cp DriverName (.multiSz list)).map cp.convert)) := by
  rw [uninstall_read hwrites.1 hquery, if_pos hsome, writeBack_eq hwrites, written_uninstall]

theorem uninstalls_iff (hvalue : value = .absent ∨ ∃ list, value = .multiSz list) :
    others cp DriverName (FiltersUninstallClass cp DriverName calls value).2 = others cp DriverName value ↔
      (calls.writes → calls.query = true → 0 < occurrences cp DriverName value →
        ∀ Entry ∈ others cp DriverName value, Representable cp Entry) := by
  by_cases hwrites : calls.writes
  swap
  · rw [uninstall_of_not_writes hwrites]
    exact iff_of_true rfl fun hw => absurd hw hwrites
  obtain hunread | ⟨list, rfl, hquery⟩ := unread_or_read hvalue calls
  · rw [uninstall_unread (ne_sz hvalue) hwrites.1 hunread]
    refine iff_of_true rfl fun _ hquery hsome => ?_
    obtain rfl | hquery' := hunread
    · simp [occurrences, Value.entries] at hsome
    · rw [hquery] at hquery'
      cases hquery'
  · rcases Nat.eq_zero_or_pos (occurrences cp DriverName (.multiSz list)) with hnone | hsome
    · rw [uninstall_read hwrites.1 hquery, if_neg (by omega)]
      exact iff_of_true rfl fun _ _ hsome => absurd hsome (by omega)
    · rw [uninstall_remove hwrites hquery list hsome, others_map, convert_iff]
      exact ⟨fun h _ _ _ => h, fun h => h hwrites hquery hsome⟩

/-! ## The one after the other -/

/-- An uninstall of a list in which the driver is once, at the end. -/
theorem uninstall_last (hopens : calls.opens = true) (list : List Text)
    (hnone : occurrences cp DriverName (.multiSz list) = 0)
    (hrep : ∀ Entry ∈ list, Representable cp Entry)
    (h : (FiltersUninstallClass cp DriverName calls
      (.multiSz ((list.map cp.toAnsi ++ [DriverName]).map cp.toUnicode))).1 = true) :
    (FiltersUninstallClass cp DriverName calls
      (.multiSz ((list.map cp.toAnsi ++ [DriverName]).map cp.toUnicode))).2.entries = list ↔
        calls.query = true := by
  obtain ⟨hothers, hoccurrences⟩ := @written_install cp DriverName list
  have hmap : list.map cp.convert = list := (map_eq_self_iff _ _).mpr hrep
  have hlist : (others cp DriverName (.multiSz list)).map cp.convert = list := by
    rw [others_eq_entries hnone]
    exact hmap
  rw [hnone] at hoccurrences
  rw [hlist] at hothers
  cases hquery : calls.query with
  | false =>
    rw [uninstall_unread (by simp) hopens (.inr hquery)]
    refine iff_of_false (fun heq => ?_) Bool.false_ne_true
    have hlength := congrArg List.length heq
    simp [Value.entries] at hlength
  | true =>
    refine iff_of_true ?_ rfl
    have hwrites : calls.writes := by
      by_contra hwrites
      rw [uninstall_read hopens hquery, if_pos (by omega), writeBack_failed hopens hwrites] at h
      cases h
    rw [uninstall_remove hwrites hquery _ (by omega), hothers]
    exact hmap

/-- An install of a new driver that writes what it has read adds it at the end. -/
theorem install_new (hvalue : value = .absent ∨ ∃ list, value = .multiSz list) (hwrites : calls.writes)
    (hnone : occurrences cp DriverName value = 0)
    (hread : calls.query = false → others cp DriverName value = [])
    (hrep : calls.query = true → ∀ Entry ∈ others cp DriverName value, Representable cp Entry) :
    FiltersInstallClass cp DriverName calls value =
        (true, .multiSz ((value.entries.map cp.toAnsi ++ [DriverName]).map cp.toUnicode)) ∧
      ∀ Entry ∈ value.entries, Representable cp Entry := by
  rw [others_eq_entries hnone] at hread hrep
  obtain rfl | ⟨list, rfl⟩ := hvalue
  · exact ⟨install_alone (by simp) hwrites (.inl rfl), by simp [Value.entries]⟩
  · cases hquery : calls.query with
    | false =>
      obtain rfl : list = [] := hread hquery
      exact ⟨install_alone (by simp) hwrites (.inr hquery), by simp [Value.entries]⟩
    | true => exact ⟨install_append hwrites hquery list hnone, hrep hquery⟩

/-- A code page that has all texts. -/
def allTexts : CodePage := ⟨id, id, fun _ => rfl⟩

/-- All calls succeed. -/
def succeeding : Calls := ⟨true, true, true, true⟩

/-- The query fails, for want of memory for instance. -/
def queryFails : Calls := ⟨true, false, true, true⟩

/-- The filters of a storage class. -/
def storage : Value := .multiSz ["EhStorClass".toList, "partmgr".toList]

end XenBus.Xen.Filters
