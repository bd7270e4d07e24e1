import Mathlib.Data.List.Perm.Basic
import Mathlib.Data.List.Nodup

/-!
# The device classes and the physical device objects

`FdoScan` and `FdoEnumerate` (`fdo.c`). A pass takes the names in the store's `device` directory, in upper
case, and the `SyntheticClasses` of the registry, strikes out what the `SupportedClasses` do not contain, and
walks the list of the PDOs: one whose name is in the list stays and strikes out the name, another one is
missing from now on. What is left of the list are new devices.

`matches_iff_clean` says when the PDOs agree with the list then. A name that is in the list twice is struck out
once, so it gets one more PDO (`listed_twice`), `strncmp` with the length of the name accepts the
beginning of a supported class (`listed_beginning`), and a PDO keeps no more of a name than its `Name` has room
for (`PdoSetName`), which an assertion excludes in a build that has assertions.
-/

namespace XenBus.Fdo.Classes

/-! ## Data -/

/-- The characters of a string before its `NUL`. -/
abbrev CString := List Char

abbrev nul : Char := Char.ofNat 0

/-- `MAX_DEVICE_ID_LEN`. -/
def MAX_DEVICE_ID_LEN : ℕ := 200

/-- `ANSI_STRING`, whose length is a `USHORT`: the strings here are those that the functions of the registry and
`FdoMultiSzToUpcaseAnsi` return, with the lengths that they have. -/
structure Ansi where
  Buffer : CString
  Length : ℕ
  deriving DecidableEq

/-- `DEVICE_PNP_STATE`. -/
inductive PnpState
  | Invalid
  | Present
  | Enumerated
  | Added
  | Started
  | StopPending
  | Stopped
  | RemovePending
  | SurpriseRemovePending
  | Deleted
  deriving DecidableEq

/-- `XENBUS_PDO` and its `XENBUS_DX`. The `id` is the address. -/
structure Pdo where
  id : ℕ
  Name : CString
  Missing : Bool
  DevicePnpState : PnpState
  deriving DecidableEq

/-- The list of the PDOs, and the address of the next one. -/
structure State where
  List : List Pdo
  next : ℕ

/-! ## The lists -/

/-- `__toupper`. -/
def toupper (c : Char) : Char :=
  if c < 'a' ∨ 'z' < c then c else Char.ofNat ('A'.toNat + c.toNat - 'a'.toNat)

/-- `FdoMultiSzToUpcaseAnsi`: the strings of a buffer as far as the second of two `NUL`. -/
def splitUpcase (current : CString) : List Char → List CString
  | [] => []
  | c :: rest =>
    if c = nul then
      current.reverse :: match rest with
        | [] => []
        | d :: _ => if d = nul then [] else splitUpcase [] rest
    else splitUpcase (toupper c :: current) rest

def newAnsi (s : CString) : Ansi := ⟨s, s.length⟩

def FdoMultiSzToUpcaseAnsi (Buffer : List Char) : List Ansi := (splitUpcase [] Buffer).map newAnsi

/-- `FdoCombineAnsi`. A list that is `NULL` has no strings. -/
def FdoCombineAnsi (AnsiA AnsiB : Option (List Ansi)) : List Ansi := AnsiA.getD [] ++ AnsiB.getD []

/-- `strncmp(s, s', n) == 0`. -/
def strncmp (s s' : CString) (n : ℕ) : Bool := s.take n == s'.take n

/-- A class is struck out unless it is supported. -/
def strike (SupportedClasses : Option (List Ansi)) (Class : Ansi) : Ansi :=
  if (SupportedClasses.getD []).any fun Entry => strncmp Class.Buffer Entry.Buffer Class.Length then Class
  else { Class with Length := 0 }

/-! ## FdoEnumerate -/

/-- The PDO is neither missing nor deleted. -/
def Pdo.live (Pdo : Pdo) : Bool := !Pdo.Missing && Pdo.DevicePnpState ≠ .Deleted

/-- The first class with the name is struck out, if there is one. -/
def claim (Name : CString) : List Ansi → Option (List Ansi)
  | [] => none
  | Class :: Classes =>
    if Class.Length ≠ 0 ∧ Name = Class.Buffer then some ({ Class with Length := 0 } :: Classes)
    else (claim Name Classes).map (Class :: ·)

/-- The walk over the PDOs: the list of them after it, the classes, and `NeedInvalidate`. One that has not
been enumerated yet is destroyed. -/
def walk : List Pdo → List Ansi → List Pdo × List Ansi × Bool
  | [], Classes => ([], Classes, false)
  | Pdo :: Pdos, Classes =>
    if Pdo.live then
      match claim Pdo.Name Classes with
      | some Classes => (Pdo :: (walk Pdos Classes).1, (walk Pdos Classes).2)
      | none =>
        if Pdo.DevicePnpState = .Present then walk Pdos Classes
        else ({ Pdo with Missing := true } :: (walk Pdos Classes).1, (walk Pdos Classes).2.1, true)
    else (Pdo :: (walk Pdos Classes).1, (walk Pdos Classes).2)

/-- `__PdoSetName`: what fits into `Name` with its `NUL`. -/
def PdoSetName (Name : CString) : CString := Name.take (MAX_DEVICE_ID_LEN - 1)

/-- `PdoCreate` where it succeeds. -/
def PdoCreate (s : State) (Name : CString) : State where
  List := s.List ++ [⟨s.next, PdoSetName Name, false, .Present⟩]
  next := s.next + 1

/-- The walk over the classes. `succeeds` tells for which name `PdoCreate` does. -/
def create (succeeds : CString → Bool) (s : State) (NeedInvalidate : Bool) : List Ansi → State × Bool
  | [] => (s, NeedInvalidate)
  | Class :: Classes =>
    if Class.Length ≠ 0 ∧ succeeds Class.Buffer then create succeeds (PdoCreate s Class.Buffer) true Classes
    else create succeeds s NeedInvalidate Classes

/-- `FdoEnumerate`. -/
def FdoEnumerate (Enumerate : Option ℕ) (succeeds : CString → Bool) (s : State) (Classes : List Ansi) :
    State × Bool :=
  if Enumerate.getD 1 = 0 then (s, false)
  else
    let (Pdos, Classes, NeedInvalidate) := walk s.List Classes
    create succeeds { s with List := Pdos } NeedInvalidate Classes

/-! ## FdoScan -/

/-- What a pass finds: the buffer that `XENBUS_STORE(Directory)` returns, the values of the registry, and
whether the allocations of `FdoCombineAnsi` succeed. -/
structure Input where
  Buffer : Option (List Char)
  SyntheticClasses : Option (List CString)
  SupportedClasses : Option (List CString)
  Enumerate : Option ℕ
  memory : Bool
  succeeds : CString → Bool

/-- The combined list. -/
def Input.classes (i : Input) : List Ansi :=
  FdoCombineAnsi (i.Buffer.map FdoMultiSzToUpcaseAnsi) (i.SyntheticClasses.map (·.map newAnsi))

/-- A pass of `FdoScan`, unless it gives up before `FdoEnumerate`. -/
def FdoScan (i : Input) (s : State) : Option (State × Bool) :=
  if i.memory then
    let Classes := i.classes.map (strike (i.SupportedClasses.map (·.map newAnsi)))
    some (FdoEnumerate i.Enumerate i.succeeds s Classes)
  else none

/-! ## The buffer of the directory -/

/-- The buffer with the names in a directory, which the store returns unless there are none. -/
def directory (names : List CString) : Option (List Char) :=
  if names = [] then none else some (names.flatMap (· ++ [nul]) ++ [nul])

/-- The name of a node of the store. -/
def NodeName (name : CString) : Prop := name ≠ [] ∧ nul ∉ name

def upcase (name : CString) : CString := name.map toupper

theorem splitUpcase_append {name rest : List Char} (hname : nul ∉ name) (current : CString) :
    splitUpcase current (name ++ nul :: rest) = (current.reverse ++ upcase name) :: match rest with
      | [] => []
      | d :: _ => if d = nul then [] else splitUpcase [] rest := by
  induction name generalizing current with
  | nil => simp [splitUpcase, upcase]
  | cons c name ih =>
    obtain ⟨hc, hname⟩ := not_or.mp (mt List.mem_cons.mpr hname)
    rw [List.cons_append, splitUpcase.eq_def]
    simp only [if_neg (Ne.symm hc), ih hname]
    simp [upcase]

/-- **The names of a directory are read back**, in upper case. -/
theorem splitUpcase_directory {names : List CString} (hnames : ∀ name ∈ names, NodeName name)
    (hne : names ≠ []) :
    splitUpcase [] (names.flatMap (· ++ [nul]) ++ [nul]) = names.map upcase := by
  induction names with
  | nil => exact absurd rfl hne
  | cons name names ih =>
    obtain ⟨hname, hnames⟩ := List.forall_mem_cons.mp hnames
    have hsplit : (name :: names).flatMap (· ++ [nul]) ++ [nul] =
        name ++ nul :: (names.flatMap (· ++ [nul]) ++ [nul]) := by simp
    rw [hsplit, splitUpcase_append hname.2]
    cases names with
    | nil => simp
    | cons next names =>
      obtain ⟨⟨hnext, hnul⟩, -⟩ := List.forall_mem_cons.mp hnames
      obtain ⟨d, next', rfl⟩ := List.exists_cons_of_ne_nil hnext
      have hd : d ≠ nul := fun hd => hnul (by simp [hd])
      have hrest := ih hnames (by simp)
      simp only [List.flatMap_cons, List.cons_append, List.append_assoc] at hrest ⊢
      simp only [if_neg hd, hrest]
      simp

/-! ## The classes that have not been struck out -/

/-- The names of the classes that have not been struck out. -/
def active (Classes : List Ansi) : List CString := (Classes.filter (·.Length ≠ 0)).map Ansi.Buffer

theorem active_cons (Class : Ansi) (Classes : List Ansi) :
    active (Class :: Classes) =
      if Class.Length = 0 then active Classes else Class.Buffer :: active Classes := by
  unfold active
  split_ifs with h <;> simp [h]

/-- The name is the beginning of a supported class. -/
def accepted (SupportedClasses : List CString) (name : CString) : Bool :=
  name ≠ [] && SupportedClasses.any fun Entry => name <+: Entry

theorem strncmp_length (s s' : CString) : strncmp s s' s.length = true ↔ s <+: s' := by
  rw [strncmp, beq_iff_eq, List.take_length, List.prefix_iff_eq_take]

theorem active_strike (SupportedClasses : Option (List CString)) (names : List CString) :
    active ((names.map newAnsi).map (strike (SupportedClasses.map (·.map newAnsi)))) =
      names.filter (accepted (SupportedClasses.getD [])) := by
  have hany : ∀ name, (((SupportedClasses.map (·.map newAnsi)).getD []).any fun Entry =>
      strncmp name Entry.Buffer name.length) = (SupportedClasses.getD []).any fun Entry => name <+: Entry := by
    intro name
    rw [Bool.eq_iff_iff]
    cases SupportedClasses <;> simp [newAnsi, strncmp_length]
  induction names with
  | nil => rfl
  | cons name names ih =>
    rw [List.map_cons, List.map_cons, active_cons, ih, strike]
    simp only [newAnsi, hany name]
    by_cases hany' : ((SupportedClasses.getD []).any fun Entry => name <+: Entry) = true
    · rw [if_pos hany']
      by_cases hne : name = []
      · simp [hne, accepted]
      · have hacc : accepted (SupportedClasses.getD []) name = true := by
          simp only [accepted, hany']
          simpa using hne
        rw [List.filter_cons_of_pos hacc, if_neg (by simpa using hne)]
    · have hacc : ¬ accepted (SupportedClasses.getD []) name = true := by
        simp only [accepted, Bool.and_eq_true]
        exact fun hh => hany' hh.2
      rw [if_neg hany', List.filter_cons_of_neg hacc, if_pos rfl]

/-! ## The walks -/

def liveNames (Pdos : List Pdo) : List CString := (Pdos.filter Pdo.live).map Pdo.Name

theorem liveNames_cons (p : Pdo) (Pdos : List Pdo) : liveNames (p :: Pdos) =
    if p.live then p.Name :: liveNames Pdos else liveNames Pdos := by
  unfold liveNames
  split_ifs with h <;> simp [h]

/-- A name is struck out once. -/
theorem claim_some {Name : CString} {Classes Classes' : List Ansi} (h : claim Name Classes = some Classes') :
    (active Classes).Perm (Name :: active Classes') := by
  induction Classes generalizing Classes' with
  | nil => cases h
  | cons Class Classes ih =>
    unfold claim at h
    split_ifs at h with hClass
    · obtain rfl := Option.some.inj h
      rw [active_cons, active_cons, if_neg hClass.1, if_pos rfl, hClass.2]
    · obtain ⟨rest, hrest, rfl⟩ := Option.map_eq_some_iff.mp h
      rw [active_cons, active_cons]
      split_ifs
      · exact ih hrest
      · exact ((ih hrest).cons _).trans (.swap ..)

theorem claim_none {Name : CString} {Classes : List Ansi} (h : claim Name Classes = none) :
    Name ∉ active Classes := by
  induction Classes with
  | nil => simp [active]
  | cons Class Classes ih =>
    unfold claim at h
    split_ifs at h with hClass
    have hrest := ih (Option.map_eq_none_iff.mp h)
    rw [active_cons]
    split_ifs with hLength
    · exact hrest
    · exact fun hmem => (List.mem_cons.mp hmem).elim (fun heq => hClass ⟨hLength, heq⟩) hrest

/-- What the walk over the PDOs leaves: each class is the name of a PDO that stays, or left over. -/
theorem walk_perm (Pdos : List Pdo) (Classes : List Ansi) :
    (liveNames (walk Pdos Classes).1 ++ active (walk Pdos Classes).2.1).Perm (active Classes) := by
  induction Pdos generalizing Classes with
  | nil => simp [walk, liveNames]
  | cons p Pdos ih =>
    rw [walk]
    by_cases hlive : p.live = true
    · rw [if_pos hlive]
      cases hclaim : claim p.Name Classes with
      | some Classes' =>
        rw [liveNames_cons, if_pos hlive]
        exact ((ih Classes').cons _).trans (claim_some hclaim).symm
      | none =>
        simp only
        split_ifs
        · exact ih Classes
        · rw [liveNames_cons, if_neg (by simp [Pdo.live])]
          exact ih Classes
    · rw [if_neg hlive, liveNames_cons, if_neg hlive]
      exact ih Classes

/-- A PDO whose name is in the list stays, if no other one has the name. -/
theorem mem_walk {Pdos : List Pdo} {Classes : List Ansi} {p : Pdo} (hnames : (liveNames Pdos).Nodup)
    (hp : p ∈ Pdos) (hlive : p.live = true) (hactive : p.Name ∈ active Classes) :
    p ∈ (walk Pdos Classes).1 := by
  induction Pdos generalizing Classes with
  | nil => cases hp
  | cons q Pdos ih =>
    have hrest : (liveNames Pdos).Nodup := by
      rw [liveNames_cons] at hnames
      split_ifs at hnames
      · exact hnames.of_cons
      · exact hnames
    rw [List.mem_cons] at hp
    rw [walk]
    by_cases hq : q.live = true
    · rw [if_pos hq]
      cases hclaim : claim q.Name Classes with
      | some Classes' =>
        obtain rfl | hp := hp
        · exact List.mem_cons_self
        · -- The name that has been struck out is another one.
          have hne : p.Name ≠ q.Name := by
            rw [liveNames_cons, if_pos hq] at hnames
            intro heq
            exact (List.nodup_cons.mp hnames).1
              (heq ▸ List.mem_map_of_mem (List.mem_filter.mpr ⟨hp, hlive⟩))
          have hactive' := (claim_some hclaim).mem_iff.mp hactive
          exact List.mem_cons_of_mem _ (ih hrest hp ((List.mem_cons.mp hactive').resolve_left hne))
      | none =>
        obtain rfl | hp := hp
        · exact absurd hactive (claim_none hclaim)
        · simp only
          split_ifs
          · exact ih hrest hp hactive
          · exact List.mem_cons_of_mem _ (ih hrest hp hactive)
    · rw [if_neg hq]
      obtain rfl | hp := hp
      · exact absurd hlive hq
      · exact List.mem_cons_of_mem _ (ih hrest hp hactive)

/-! ## Names -/

/-- The name fits into the `Name` of the device. -/
def Pdo.Fits (Pdo : Pdo) : Prop := Pdo.Name.length < MAX_DEVICE_ID_LEN

theorem length_PdoSetName_lt (Name : CString) : (PdoSetName Name).length < MAX_DEVICE_ID_LEN := by
  rw [PdoSetName, List.length_take]
  exact Nat.lt_of_le_of_lt (Nat.min_le_left _ _) (by decide)

theorem PdoSetName_of_lt {Name : CString} (h : Name.length < MAX_DEVICE_ID_LEN) : PdoSetName Name = Name :=
  List.take_of_length_le (Nat.le_sub_one_of_lt h)

theorem walk_fits {Pdos : List Pdo} (Classes : List Ansi) (h : ∀ p ∈ Pdos, p.Fits) :
    ∀ p ∈ (walk Pdos Classes).1, p.Fits := by
  induction Pdos generalizing Classes with
  | nil => exact h
  | cons p Pdos ih =>
    obtain ⟨hp, hPdos⟩ := List.forall_mem_cons.mp h
    have hrest := fun Classes => ih Classes hPdos
    rw [walk]
    split_ifs with hlive hpresent
    · cases claim p.Name Classes with
      | some Classes' => exact List.forall_mem_cons.mpr ⟨hp, hrest Classes'⟩
      | none => exact hrest Classes
    · cases claim p.Name Classes with
      | some Classes' => exact List.forall_mem_cons.mpr ⟨hp, hrest Classes'⟩
      | none => exact List.forall_mem_cons.mpr ⟨hp, hrest Classes⟩
    · exact List.forall_mem_cons.mpr ⟨hp, hrest Classes⟩

theorem create_fits {succeeds : CString → Bool} {s : State} (NeedInvalidate : Bool) (Classes : List Ansi)
    (h : ∀ p ∈ s.List, p.Fits) : ∀ p ∈ (create succeeds s NeedInvalidate Classes).1.List, p.Fits := by
  induction Classes generalizing s NeedInvalidate with
  | nil => exact h
  | cons Class Classes ih =>
    unfold create
    split_ifs
    · apply ih
      exact List.forall_mem_append.mpr ⟨h, List.forall_mem_singleton.mpr (length_PdoSetName_lt _)⟩
    · exact ih NeedInvalidate h

/-- **The names fit** after a pass if they did before. -/
theorem FdoScan_fits {i : Input} {s s' : State} {NeedInvalidate : Bool} (h : FdoScan i s = some (s', NeedInvalidate))
    (hfits : ∀ p ∈ s.List, p.Fits) : ∀ p ∈ s'.List, p.Fits := by
  unfold FdoScan FdoEnumerate at h
  split_ifs at h
  · obtain ⟨rfl, -⟩ := Prod.mk.inj (Option.some.inj h)
    exact hfits
  · obtain ⟨rfl, -⟩ := Prod.mk.inj (Option.some.inj h)
    exact create_fits _ _ (walk_fits _ hfits)

theorem map_PdoSetName_liveNames {Pdos : List Pdo} (h : ∀ p ∈ Pdos, p.Fits) :
    (liveNames Pdos).map PdoSetName = liveNames Pdos := by
  refine (List.map_congr_left fun Name hName => ?_).trans (List.map_id _)
  obtain ⟨p, hp, rfl⟩ := List.mem_map.mp hName
  exact PdoSetName_of_lt (h p (List.mem_of_mem_filter hp))

/-! ## The whole pass -/

/-- The devices that are left over are created. -/
theorem create_spec {succeeds : CString → Bool} (hsucceeds : ∀ c, succeeds c = true) (s : State)
    (NeedInvalidate : Bool) (Classes : List Ansi) :
    ∃ new, (create succeeds s NeedInvalidate Classes).1.List = s.List ++ new ∧
      liveNames new = (active Classes).map PdoSetName := by
  induction Classes generalizing s NeedInvalidate with
  | nil => exact ⟨[], by simp [create], rfl⟩
  | cons Class Classes ih =>
    unfold create
    rw [active_cons]
    by_cases hLength : Class.Length = 0
    · rw [if_neg (by simp [hLength]), if_pos hLength]
      exact ih s NeedInvalidate
    · rw [if_pos ⟨hLength, hsucceeds _⟩, if_neg hLength]
      obtain ⟨new, hlist, hnew⟩ := ih (PdoCreate s Class.Buffer) true
      refine ⟨⟨s.next, PdoSetName Class.Buffer, false, .Present⟩ :: new, ?_, ?_⟩
      · rw [hlist, PdoCreate, List.append_assoc, List.singleton_append]
      · rw [liveNames_cons, if_pos (by simp [Pdo.live]), hnew, List.map_cons]

theorem liveNames_append (Pdos Pdos' : List Pdo) :
    liveNames (Pdos ++ Pdos') = liveNames Pdos ++ liveNames Pdos' := by
  simp [liveNames]

/-- **The PDOs after a pass**: their names are the classes that have not been struck out, each as often as it
occurs among them, as far as there is room for them. -/
theorem FdoEnumerate_spec {Enumerate : Option ℕ} {succeeds : CString → Bool}
    (hEnumerate : Enumerate.getD 1 ≠ 0) (hsucceeds : ∀ c, succeeds c = true) {s : State}
    (hfits : ∀ p ∈ s.List, p.Fits) (Classes : List Ansi) :
    (liveNames (FdoEnumerate Enumerate succeeds s Classes).1.List).Perm ((active Classes).map PdoSetName) ∧
      ((liveNames s.List).Nodup → ∀ p ∈ s.List, p.live = true → p.Name ∈ active Classes →
        p ∈ (FdoEnumerate Enumerate succeeds s Classes).1.List) := by
  unfold FdoEnumerate
  rw [if_neg hEnumerate]
  obtain ⟨new, hlist, hnew⟩ := create_spec hsucceeds { s with List := (walk s.List Classes).1 }
    (walk s.List Classes).2.2 (walk s.List Classes).2.1
  refine ⟨?_, fun hnames p hp hlive hactive => ?_⟩
  · rw [hlist, liveNames_append, hnew, ← map_PdoSetName_liveNames (walk_fits Classes hfits), ← List.map_append]
    exact (walk_perm s.List Classes).map PdoSetName
  · rw [hlist]
    exact List.mem_append_left _ (mem_walk hnames hp hlive hactive)

/-! ## The result -/

variable {i : Input} {s s' : State} {device : List CString}

/-- The store's classes in upper case and the synthetic ones. -/
def names (device : List CString) (i : Input) : List CString :=
  device.map upcase ++ i.SyntheticClasses.getD []

/-- The name of a device that there should be. -/
def Expected (device : List CString) (i : Input) (name : CString) : Prop :=
  name ∈ names device i ∧ name ∈ i.SupportedClasses.getD []

/-- The PDOs agree with the store and the registry, and none that stays has been touched. -/
structure Matches (device : List CString) (i : Input) (s s' : State) : Prop where
  distinct : (liveNames s'.List).Nodup
  exact : ∀ name, name ∈ liveNames s'.List ↔ Expected device i name
  kept : ∀ p ∈ s.List, p.live = true → Expected device i p.Name → p ∈ s'.List

/-- No supported name is listed twice, no name is the beginning of a supported class without being one, the
empty name is not supported, and a supported name that is listed fits into the `Name` of a device. -/
structure Clean (device : List CString) (i : Input) : Prop where
  once : ∀ name ∈ i.SupportedClasses.getD [], (names device i).count name ≤ 1
  whole : ∀ name ∈ names device i, name ≠ [] → ∀ Entry ∈ i.SupportedClasses.getD [], name <+: Entry →
    name ∈ i.SupportedClasses.getD []
  nonempty : [] ∈ names device i → [] ∉ i.SupportedClasses.getD []
  short : ∀ name ∈ names device i, name ∈ i.SupportedClasses.getD [] → name.length < MAX_DEVICE_ID_LEN

theorem classes_eq (hdevice : ∀ name ∈ device, NodeName name) (hBuffer : i.Buffer = directory device) :
    i.classes = (names device i).map newAnsi := by
  have hstore : (i.Buffer.map FdoMultiSzToUpcaseAnsi).getD [] = (device.map upcase).map newAnsi := by
    rw [hBuffer, directory]
    split_ifs with hne
    · simp [hne]
    · rw [Option.map_some, Option.getD_some, FdoMultiSzToUpcaseAnsi, splitUpcase_directory hdevice hne]
  rw [Input.classes, FdoCombineAnsi, hstore, names, List.map_append]
  cases i.SyntheticClasses <;> rfl

theorem accepted_iff {SupportedClasses : List CString} {name : CString} :
    accepted SupportedClasses name = true ↔ name ≠ [] ∧ ∃ Entry ∈ SupportedClasses, name <+: Entry := by
  simp [accepted]

theorem Clean.accepted_iff (h : Clean device i) {name : CString} (hname : name ∈ names device i) :
    accepted (i.SupportedClasses.getD []) name = true ↔ name ∈ i.SupportedClasses.getD [] := by
  rw [Classes.accepted_iff]
  constructor
  · rintro ⟨hne, Entry, hEntry, hpre⟩
    exact h.whole name hname hne Entry hEntry hpre
  · intro hsupported
    refine ⟨?_, name, hsupported, List.prefix_refl name⟩
    rintro rfl
    exact h.nonempty hname hsupported

theorem Clean.nodup (h : Clean device i) :
    ((names device i).filter (accepted (i.SupportedClasses.getD []))).Nodup := by
  rw [List.nodup_iff_count_le_one]
  intro name
  by_cases hmem : name ∈ (names device i).filter (accepted (i.SupportedClasses.getD []))
  · obtain ⟨hname, haccepted⟩ := List.mem_filter.mp hmem
    rw [List.count_filter haccepted]
    exact h.once name ((h.accepted_iff hname).mp haccepted)
  · rw [List.count_eq_zero_of_not_mem hmem]
    exact Nat.zero_le 1

/-- The names that are accepted fit, if the PDOs that they are given to agree with the lists: of a longer one
the PDO has the beginning, which is listed too, so there are two PDOs of this name. -/
theorem Matches.fits (h : Matches device i s s')
    (hperm : (liveNames s'.List).Perm
      (((names device i).filter (accepted (i.SupportedClasses.getD []))).map PdoSetName)) {name : CString}
    (hname : name ∈ (names device i).filter (accepted (i.SupportedClasses.getD []))) :
    name.length < MAX_DEVICE_ID_LEN := by
  have hnodup := hperm.nodup_iff.mp h.distinct
  obtain ⟨hlisted, hsupported⟩ := (h.exact _).mp (hperm.mem_iff.mpr (List.mem_map_of_mem hname))
  have hne : PdoSetName name ≠ [] := by
    have hne := (accepted_iff.mp (List.mem_filter.mp hname).2).1
    obtain ⟨c, name, rfl⟩ := List.exists_cons_of_ne_nil hne
    exact List.cons_ne_nil _ _
  have haccepted := accepted_iff.mpr ⟨hne, _, hsupported, List.prefix_refl _⟩
  have hagain : PdoSetName (PdoSetName name) = PdoSetName name := PdoSetName_of_lt (length_PdoSetName_lt name)
  have heq : PdoSetName name = name :=
    List.inj_on_of_nodup_map hnodup (List.mem_filter.mpr ⟨hlisted, haccepted⟩) hname hagain
  exact heq ▸ length_PdoSetName_lt name

theorem map_PdoSetName {l : List CString} (h : ∀ name ∈ l, name.length < MAX_DEVICE_ID_LEN) :
    l.map PdoSetName = l :=
  (List.map_congr_left fun name hname => PdoSetName_of_lt (h name hname)).trans (List.map_id l)

theorem clean_of_matches (h : Matches device i s s')
    (hperm : (liveNames s'.List).Perm
      (((names device i).filter (accepted (i.SupportedClasses.getD []))).map PdoSetName)) :
    Clean device i := by
  have hfits : ∀ name ∈ (names device i).filter (accepted (i.SupportedClasses.getD [])),
      name.length < MAX_DEVICE_ID_LEN := fun name hname => h.fits hperm hname
  rw [map_PdoSetName hfits] at hperm
  have hmem : ∀ {name}, name ∈ names device i → accepted (i.SupportedClasses.getD []) name = true →
      name ∈ i.SupportedClasses.getD [] := fun hname haccepted =>
    ((h.exact _).mp (hperm.mem_iff.mpr (List.mem_filter.mpr ⟨hname, haccepted⟩))).2
  have hexpected : ∀ {name}, name ∈ names device i → name ∈ i.SupportedClasses.getD [] →
      name ∈ (names device i).filter (accepted (i.SupportedClasses.getD [])) := fun hname hsupported =>
    hperm.mem_iff.mp ((h.exact _).mpr ⟨hname, hsupported⟩)
  have hnonempty : [] ∈ names device i → [] ∉ i.SupportedClasses.getD [] := by
    intro hname hsupported
    exact (accepted_iff.mp (List.mem_filter.mp (hexpected hname hsupported)).2).1 rfl
  constructor
  case once =>
    intro name hsupported
    by_cases hne : name = []
    · subst hne
      rw [List.count_eq_zero_of_not_mem fun hname => hnonempty hname hsupported]
      exact Nat.zero_le 1
    · have haccepted := accepted_iff.mpr ⟨hne, name, hsupported, List.prefix_refl name⟩
      rw [← List.count_filter haccepted]
      exact List.nodup_iff_count_le_one.mp (hperm.nodup_iff.mp h.distinct) name
  case whole =>
    intro name hname hne Entry hEntry hpre
    exact hmem hname (accepted_iff.mpr ⟨hne, Entry, hEntry, hpre⟩)
  case nonempty => exact hnonempty
  case short => exact fun name hname hsupported => hfits name (hexpected hname hsupported)

/-- **The PDOs agree with the store and the registry after a pass if and only if the lists are clean.** -/
theorem matches_iff_clean {NeedInvalidate : Bool} (hdevice : ∀ name ∈ device, NodeName name)
    (hBuffer : i.Buffer = directory device) (hEnumerate : i.Enumerate.getD 1 ≠ 0)
    (hsucceeds : ∀ c, i.succeeds c = true) (hnames : (liveNames s.List).Nodup) (hfits : ∀ p ∈ s.List, p.Fits)
    (h : FdoScan i s = some (s', NeedInvalidate)) : Matches device i s s' ↔ Clean device i := by
  unfold FdoScan at h
  split_ifs at h
  rw [classes_eq hdevice hBuffer] at h
  obtain ⟨hperm, hkept⟩ := FdoEnumerate_spec hEnumerate hsucceeds hfits
    (((names device i).map newAnsi).map (strike (i.SupportedClasses.map (·.map newAnsi))))
  rw [Option.some.inj h, active_strike] at hperm hkept
  constructor
  · exact fun hmatches => clean_of_matches hmatches hperm
  · intro hclean
    have hmem : ∀ name, name ∈ (names device i).filter (accepted (i.SupportedClasses.getD [])) ↔
        Expected device i name := by
      intro name
      rw [List.mem_filter]
      exact and_congr_right fun hname => hclean.accepted_iff hname
    rw [map_PdoSetName fun name hname => hclean.short name ((hmem name).mp hname).1 ((hmem name).mp hname).2]
      at hperm
    constructor
    case distinct => exact hperm.nodup_iff.mpr hclean.nodup
    case exact => exact fun name => hperm.mem_iff.trans (hmem name)
    case kept => exact fun p hp hlive hexpected => hkept hnames p hp hlive ((hmem _).mpr hexpected)

/-! ## Runs -/

/-- A directory with the registry lists of `xenbus.inf`. -/
def input (device : List CString) (SyntheticClasses : List CString) : Input where
  Buffer := directory device
  SyntheticClasses := some SyntheticClasses
  SupportedClasses := some ["VIF".toList, "VBD".toList, "IFACE".toList, "CONS".toList]
  Enumerate := none
  memory := true
  succeeds := fun _ => true

/-- A VIF that has been started, and a VBD that has not been enumerated. -/
def twoPdos : State where
  List := [⟨0, "VIF".toList, false, .Started⟩, ⟨1, "VBD".toList, false, .Present⟩]
  next := 2

/-- The VBD disappears, and the synthetic devices are created. -/
theorem matches_of_clean_lists : ∃ s' NeedInvalidate,
    FdoScan (input ["vif".toList] ["IFACE".toList, "CONS".toList]) twoPdos = some (s', NeedInvalidate) ∧
      Matches ["vif".toList] (input ["vif".toList] ["IFACE".toList, "CONS".toList]) twoPdos s' := by
  refine ⟨_, _, rfl, (matches_iff_clean ?_ rfl (by decide) (fun _ => rfl) (by decide) ?_ rfl).mpr ?_⟩
  · intro name hname
    obtain rfl := List.mem_singleton.mp hname
    exact ⟨by decide, by decide⟩
  · unfold Pdo.Fits
    decide
  · exact ⟨by decide, by decide, by decide, by decide⟩

/-- **A class that is listed twice**: in the store in lower case, and among the synthetic classes. There are
two PDOs for it. -/
theorem listed_twice : ∃ s' NeedInvalidate,
    FdoScan (input ["vif".toList] ["VIF".toList]) twoPdos = some (s', NeedInvalidate) ∧
      ¬ Matches ["vif".toList] (input ["vif".toList] ["VIF".toList]) twoPdos s' := by
  refine ⟨_, _, rfl, fun hmatches => ?_⟩
  exact absurd hmatches.distinct (by decide)

/-- **The beginning of a supported class**: there is a PDO for it. -/
theorem listed_beginning : ∃ s' NeedInvalidate,
    FdoScan (input ["v".toList] []) twoPdos = some (s', NeedInvalidate) ∧
      "V".toList ∈ liveNames s'.List ∧ "V".toList ∉ (input ["v".toList] []).SupportedClasses.getD [] :=
  ⟨_, _, rfl, by decide, by decide⟩

end XenBus.Fdo.Classes
