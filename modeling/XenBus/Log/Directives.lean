import XenBus.Log.Numbers

/-!
# The directives for numbers

A directive for a number has `-`, a width and `l`s before its character. `LogWriteSlot` puts the text of the
number, justified to the width, and goes on behind the directive (`logWriteSlot_numeral`). A width is kept in a
`UCHAR`, and `p` has its own.

`numbers_read_back`: the text reads back as the number, and the slot gets of it what fits.
-/

namespace XenBus.Log

variable {dbg : Bool} {memory : Memory}

/-! ## Directives -/

/-- The characters of the directives for numbers. -/
def conversions : List UInt8 := [100, 117, 111, 120, 88, 112]

/-- The number of decimal digits. -/
def decimal (digits : List UInt8) : ℕ := digits.foldl (fun n Character => n * 10 + (Character.toNat - 48)) 0

/-- A directive for a number, with a width that a `UCHAR` holds, unless the directive has its own. Before `p`
there is no `l`. -/
structure Numeral where
  left : Bool
  width : List UInt8
  long : ℕ
  Character : UInt8
  mem : Character ∈ conversions
  digits : ∀ c ∈ width, isDigit c = true
  long_le : long ≤ 2
  long_eq : Character = 112 → long = 0
  width_lt : Character ≠ 112 → decimal width < 256

/-- How a format has the directive, after the `%`. -/
def Numeral.characters (f : Numeral) : List UInt8 :=
  (if f.left then [45] else []) ++ (f.width ++ (List.replicate f.long 108 ++ [f.Character]))

/-- The number of bits of the argument. -/
def Numeral.bits (f : Numeral) : ℕ := if f.Character = 112 ∨ f.long = 2 then 64 else 32

/-- The width: `p` always has 16. -/
def Numeral.pad (f : Numeral) : ℕ := if f.Character = 112 then 16 else decimal f.width

/-- The padding on the left is of zeros. -/
def Numeral.zeros (f : Numeral) : Prop := f.Character = 112 ∨ f.width.head? = some 48

instance (f : Numeral) : Decidable f.zeros := inferInstanceAs (Decidable (_ ∨ _))

/-- A text, justified to the width. -/
def Numeral.justify (f : Numeral) (text : List UInt8) : List UInt8 :=
  if f.left then text ++ List.replicate (f.pad - text.length) 32
  else List.replicate (f.pad - text.length) (if f.zeros then 48 else 32) ++ text

/-- The text of an argument, justified to the width. -/
def Numeral.justified (f : Numeral) (argument : UInt64) : List UInt8 :=
  f.justify (formatNumber f.bits f.Character argument)

/-- A loop over the format takes a block of its characters, and the character after the block. -/
theorem scan_block {σ : Type*} {more ok : UInt8 → Bool} {f : σ → UInt8 → σ} {d : UInt8} (block rest : List UInt8)
    (hblock : ∀ c ∈ block, more c = true ∧ ok c = true) (hd : more d = false) (hok : block ≠ [] → ok d = true)
    (a : σ) {c : UInt8} {Format : List UInt8} (hFormat : c :: Format = block ++ d :: rest) :
    scan dbg more ok f a c Format = some (block.foldl f a, d, rest) := by
  induction block generalizing a c Format with
  | nil =>
    obtain ⟨rfl, rfl⟩ := List.cons.inj hFormat
    have hstop : ¬ more c = true := by rw [hd]; exact Bool.false_ne_true
    cases Format with
    | nil => exact if_neg hstop
    | cons e Format => exact if_neg hstop
  | cons b block ih =>
    obtain ⟨rfl, hrestFormat⟩ := List.cons.inj hFormat
    obtain ⟨hb, hrest⟩ := List.forall_mem_cons.mp hblock
    have hd' := hok (List.cons_ne_nil _ _)
    -- the next character is of the block, or the one after it
    obtain ⟨e, Format', he, hnext⟩ : ∃ e Format, ok e = true ∧ e :: Format = block ++ d :: rest := by
      cases block with
      | nil => exact ⟨d, rest, hd', rfl⟩
      | cons e block => exact ⟨e, block ++ d :: rest, (hrest e List.mem_cons_self).2, rfl⟩
    rw [show Format = e :: Format' from hrestFormat.trans hnext.symm, scan, if_pos hb.1, if_neg (by simp [he])]
    exact ih hrest (fun _ => hd') (f a c) hnext

theorem next_cons {c : UInt8} (hc : c ≠ 0) (Format : List UInt8) : next dbg (c :: Format) = some (c, Format) := by
  rw [next, if_neg (by simp [hc])]

theorem of_isDigit {c : UInt8} (h : isDigit c = true) : c ≠ 0 ∧ c ≠ 45 := by
  constructor <;> rintro rfl <;> exact absurd h (by decide)

/-- The width in a `UCHAR`. -/
theorem foldl_pad (width : List UInt8) (n : ℕ) :
    width.foldl (fun Pad Character => (Pad * 10 + (Character.toNat - 48)) % 256) (n % 256) =
      width.foldl (fun Pad Character => Pad * 10 + (Character.toNat - 48)) n % 256 := by
  induction width generalizing n with
  | nil => rfl
  | cons c width ih =>
    have hstep : (n % 256 * 10 + (c.toNat - 48)) % 256 = (n * 10 + (c.toNat - 48)) % 256 := by omega
    rw [List.foldl_cons, hstep, ih, List.foldl_cons]

theorem Numeral.character_spec (f : Numeral) : isDigit f.Character = false ∧ f.Character ≠ 0 ∧ f.Character ≠ 45 ∧
    f.Character ≠ 48 ∧ f.Character ≠ 108 ∧ f.Character ≠ 119 ∧
    (f.Character ≠ 112 → [100, 117, 111, 120, 88, 108].contains f.Character = true) := by
  have hall : ∀ c ∈ conversions, Log.isDigit c = false ∧ c ≠ 0 ∧ c ≠ 45 ∧ c ≠ 48 ∧ c ≠ 108 ∧ c ≠ 119 ∧
      (c ≠ 112 → [100, 117, 111, 120, 88, 108].contains c = true) := by
    simp [conversions, Log.isDigit]
  exact hall f.Character f.mem

/-- The first character after the width. -/
theorem Numeral.exists_tail (f : Numeral) (rest : List UInt8) :
    ∃ c tail, c :: tail = List.replicate f.long 108 ++ f.Character :: rest ∧ isDigit c = false ∧ c ≠ 0 ∧ c ≠ 45 ∧
      c ≠ 48 := by
  obtain ⟨hdigit, hnul, hminus, hzero, -⟩ := f.character_spec
  cases f.long with
  | zero => exact ⟨f.Character, rest, rfl, hdigit, hnul, hminus, hzero⟩
  | succ n => exact ⟨108, List.replicate n 108 ++ f.Character :: rest, rfl, by decide⟩

/-- The first character after the minus. -/
theorem Numeral.exists_first (f : Numeral) {c : UInt8} (tail : List UInt8) (hnul : c ≠ 0) (hminus : c ≠ 45)
    (hzero : c ≠ 48) : ∃ First Format, First :: Format = f.width ++ c :: tail ∧ First ≠ 0 ∧ First ≠ 45 ∧
      (First == 48) = decide (f.width.head? = some 48) := by
  cases hw : f.width with
  | nil => exact ⟨c, tail, rfl, hnul, hminus, by simp [hzero]⟩
  | cons d width =>
    obtain ⟨hdnul, hdminus⟩ := of_isDigit (f.digits d (by rw [hw]; exact List.mem_cons_self))
    exact ⟨d, width ++ c :: tail, rfl, hdnul, hdminus, Bool.eq_iff_iff.mpr (by simp)⟩

theorem Numeral.scanPad_eq (f : Numeral) {c First : UInt8} {tail Format : List UInt8} (hdigit : isDigit c = false)
    (hnul : c ≠ 0) (hFirst : First :: Format = f.width ++ c :: tail) :
    scanPad dbg First Format = some (decimal f.width % 256, c, tail) := by
  have hwidth : ∀ c ∈ f.width, isDigit c = true ∧ (c != 0) = true := fun c hc =>
    ⟨f.digits c hc, by simpa using (of_isDigit (f.digits c hc)).1⟩
  rw [scanPad, scan_block f.width tail hwidth hdigit (fun _ => by simpa using hnul) 0 hFirst]
  exact congrArg (fun Pad => some (Pad, c, tail)) (foldl_pad f.width 0)

theorem Numeral.scanLong_eq (f : Numeral) {c : UInt8} {tail rest : List UInt8}
    (hc : c :: tail = List.replicate f.long 108 ++ f.Character :: rest) :
    scanLong dbg c tail = some (f.long, f.Character, rest) := by
  obtain ⟨-, -, -, -, hlong, -, hok⟩ := f.character_spec
  have hl : ∀ c ∈ List.replicate f.long (108 : UInt8), (c == 108) = true ∧
      [100, 117, 111, 120, 88, 108].contains c = true := fun c hc => by
    rw [List.eq_of_mem_replicate hc]
    decide
  have hend : List.replicate f.long (108 : UInt8) ≠ [] →
      [100, 117, 111, 120, 88, 108].contains f.Character = true := fun hne =>
    hok fun hp => hne (by rw [f.long_eq hp]; rfl)
  have hcount : (List.replicate f.long (108 : UInt8)).foldl (fun Long _ => (Long + 1) % 256) 0 = f.long := by
    have hle := f.long_le
    obtain h | h | h : f.long = 0 ∨ f.long = 1 ∨ f.long = 2 := by omega
    all_goals rw [h]; rfl
  rw [scanLong, scan_block _ rest hl (by simpa using hlong) hend 0 hc, hcount]

/-- **A directive is read as it is meant**, but for a width that a `UCHAR` does not hold. -/
theorem Numeral.directive_eq (f : Numeral) (dbg : Bool) (rest : List UInt8) :
    directive dbg (f.characters ++ rest) =
      some (⟨f.left, f.width.head? = some 48, decimal f.width % 256, f.long, false, f.Character⟩, rest) := by
  have hsplit : f.characters ++ rest =
      (if f.left then [45] else []) ++ (f.width ++ (List.replicate f.long 108 ++ f.Character :: rest)) := by
    simp only [Numeral.characters, List.append_assoc, List.singleton_append]
  obtain ⟨c, tail, hc, hdigit, hnul, hminus, hzero⟩ := f.exists_tail rest
  obtain ⟨First, Format, hFirst, hFnul, hFminus, hFzero⟩ := f.exists_first tail hnul hminus hzero
  have hpad : scanPad dbg First Format = _ := f.scanPad_eq hdigit hnul hFirst
  have hlong : scanLong dbg c tail = _ := f.scanLong_eq hc
  have hwide : scanWide dbg f.Character rest = some (false, f.Character, rest) := by
    obtain ⟨-, -, -, -, -, hw, -⟩ := f.character_spec
    exact scan_block [] rest (List.forall_mem_nil _) (by simpa using hw) (fun hne => absurd rfl hne) false rfl
  have hshort : ¬ (dbg && decide (2 < f.long)) = true := by simp [f.long_le]
  rw [hsplit, ← hc, ← hFirst, directive]
  cases f.left with
  | true =>
    have hnext : next dbg (45 :: First :: Format) = some (45, First :: Format) := next_cons (by decide) _
    simp only [if_true, List.singleton_append, hnext, Option.bind_some, next_cons hFnul, Option.map_some, hpad,
      hlong, if_neg hshort, hwide, hFzero]
  | false =>
    simp only [Bool.false_eq_true, if_false, List.nil_append, next_cons hFnul, Option.bind_some, if_neg hFminus,
      hpad, hlong, if_neg hshort, hwide, Option.map_some, hFzero]

/-- What a directive puts: the text, justified. -/
theorem Numeral.directiveText_eq (f : Numeral) (memory : Memory) (argument : UInt64) :
    directiveText memory ⟨f.left, f.width.head? = some 48, decimal f.width % 256, f.long, false, f.Character⟩
      argument = some (f.justified argument, true) := by
  have hall : ∀ c ∈ conversions, c ≠ 99 ∧ [112, 100, 117, 111, 120, 88].contains c = true := by
    simp [conversions]
  obtain ⟨hchar, hnumber⟩ := hall f.Character f.mem
  unfold directiveText Numeral.justified Numeral.justify Numeral.bits Numeral.pad Numeral.zeros padded
  dsimp only
  rw [if_neg hchar, if_pos hnumber]
  by_cases hp : f.Character = 112
  · simp [hp]
  · simp [hp, Nat.mod_eq_of_lt (f.width_lt hp)]

theorem Numeral.item_eq (f : Numeral) (dbg : Bool) (memory : Memory) (rest : List UInt8) (Arguments : ℕ → UInt64) :
    item dbg memory 37 (f.characters ++ rest) Arguments =
      some (f.justified (Arguments 0), rest, fun i => Arguments (i + 1)) := by
  have hpercent : ¬ (37 : UInt8) ≠ 37 := not_not.mpr rfl
  simp only [item, if_neg hpercent, f.directive_eq, Option.bind_some, f.directiveText_eq, Option.map_some, if_true]

/-! ## The slot -/

/-- A round of the loop of `LogWriteSlot`, and the rounds after it. -/
theorem logFormat_cons {Format rest text : List UInt8} {Arguments Arguments' : ℕ → UInt64} {c : UInt8} (hc : c ≠ 0)
    (hitem : item dbg memory c Format Arguments = some (text, rest, Arguments')) (Count : UInt32) :
    logFormat dbg memory Count (c :: Format) Arguments =
      if Count - 1 = 0 then (text, true)
      else (text ++ (logFormat dbg memory (Count - 1) rest Arguments').1,
        (logFormat dbg memory (Count - 1) rest Arguments').2) := by
  rw [logFormat, if_neg hc]
  split
  · next hnone =>
    rw [hitem] at hnone
    cases hnone
  · next hsome =>
    obtain ⟨rfl, heq⟩ := Prod.mk.inj (Option.some.inj (hitem.symm.trans hsome))
    obtain ⟨rfl, rfl⟩ := Prod.mk.inj heq
    rfl

/-- **`LogWriteSlot` puts a number justified**, as much of it as fits in the slot, and goes on behind its
directive. -/
theorem logWriteSlot_numeral (f : Numeral) (m : Message) (hm : m.text.length ≤ bufferSize) (dbg : Bool)
    (memory : Memory) (Count : UInt32) (rest : List UInt8) (Arguments : ℕ → UInt64) :
    logWriteSlot dbg memory m.slot Count (37 :: (f.characters ++ rest)) Arguments =
      if Count - 1 = 0 then
        some (Message.slot ⟨m.Level, (m.text ++ f.justified (Arguments 0)).take bufferSize⟩, true)
      else
        logWriteSlot dbg memory (Message.slot ⟨m.Level, (m.text ++ f.justified (Arguments 0)).take bufferSize⟩)
          (Count - 1) rest fun i => Arguments (i + 1) := by
  rw [logWriteSlot, logFormat_cons (by decide) (f.item_eq dbg memory rest Arguments)]
  split_ifs with hend
  · rw [logPuts_slot _ m hm]
    rfl
  · rw [logWriteSlot, logPuts_slot _ m hm, logPuts_slot _ _ (List.length_take_le _ _), take_take_append,
      List.append_assoc]

theorem Numeral.bits_eq (f : Numeral) : f.bits = 32 ∨ f.bits = 64 := by
  unfold Numeral.bits
  split_ifs
  · exact .inr rfl
  · exact .inl rfl

/-- **Numbers in the log read back as themselves**: what `LOG_FORMAT_NUMBER` leaves in the buffer of 23 bytes is a
text that reads back as the argument in its type, and its `NUL`. `LogWriteSlot` puts this text, justified to the
width of the directive, and as much of it as fits in the slot. -/
theorem numbers_read_back (f : Numeral) (Buffer : List UInt8) (hBuffer : Buffer.length = 23) (m : Message)
    (hm : m.text.length ≤ bufferSize) (dbg : Bool) (memory : Memory) (Count : UInt32) (rest : List UInt8)
    (Arguments : ℕ → UInt64) :
    ∃ text, formatNumberAt f.bits f.Character (Arguments 0) Buffer =
        some (text ++ 0 :: Buffer.drop (text.length + 1)) ∧
      Reads f.bits f.Character (Arguments 0) text ∧
      logWriteSlot dbg memory m.slot Count (37 :: (f.characters ++ rest)) Arguments =
        if Count - 1 = 0 then
          some (Message.slot ⟨m.Level, (m.text ++ f.justify text).take bufferSize⟩, true)
        else
          logWriteSlot dbg memory (Message.slot ⟨m.Level, (m.text ++ f.justify text).take bufferSize⟩)
            (Count - 1) rest fun i => Arguments (i + 1) := by
  have hreads := formatNumber_reads f.bits_eq f.Character (Arguments 0)
  have hlength := hreads.length
  exact ⟨_, formatNumberAt_eq f.bits f.Character (Arguments 0) Buffer (by omega), hreads,
    logWriteSlot_numeral f m hm dbg memory Count rest Arguments⟩

/-- A memory without strings. -/
def noStrings : Memory := ⟨fun _ => none, fun _ => none, fun _ => none, fun _ => none⟩

/-- `%20lld`. -/
def lld20 : Numeral where
  left := false
  width := [50, 48]
  long := 2
  Character := 100
  mem := by decide
  digits := by simp [isDigit]
  long_le := by decide
  long_eq := by decide
  width_lt := by decide

/-- The most negative number. -/
theorem numbers_read_back_lld20 :
    ∃ text, formatNumberAt 64 100 9223372036854775808 (List.replicate 23 0) =
        some (text ++ 0 :: (List.replicate 23 0).drop (text.length + 1)) ∧
      Reads 64 100 9223372036854775808 text ∧
      logWriteSlot true noStrings (Message.slot ⟨0, []⟩) 1 [37, 50, 48, 108, 108, 100]
          (fun _ => 9223372036854775808) =
        some (Message.slot ⟨0, ([] ++ lld20.justify text).take bufferSize⟩, true) := by
  have hlength : (Message.mk 0 []).text.length ≤ bufferSize := by decide
  exact numbers_read_back lld20 (List.replicate 23 0) List.length_replicate ⟨0, []⟩ hlength true noStrings 1
    [] fun _ => 9223372036854775808

/-- `%20p`. -/
def p20 : Numeral where
  left := false
  width := [50, 48]
  long := 0
  Character := 112
  mem := by decide
  digits := by simp [isDigit]
  long_le := by decide
  long_eq := fun _ => rfl
  width_lt := fun hne => absurd rfl hne

/-- A pointer is put in 16 characters, also where its directive has the width 20. -/
theorem pointer_not_wide : decimal [50, 48] = 20 ∧
    (logWriteSlot true noStrings (Message.slot ⟨0, []⟩) 1 [37, 50, 48, 112] fun _ => 0).map
      (fun result => result.1.Offset) = some 16 := by
  refine ⟨rfl, ?_⟩
  have hempty : (Message.mk 0 []).text.length ≤ bufferSize := by decide
  have hwrite := logWriteSlot_numeral p20 ⟨0, []⟩ hempty true noStrings 1 [] fun _ => 0
  have hformat : 37 :: (p20.characters ++ []) = [37, 50, 48, 112] := rfl
  have hzero : formatNumber p20.bits p20.Character 0 = [48] := by
    have hdigits := logFormatNumber_eq (isBase_base 112) true 0
    rwa [Nat.zero_div, if_pos rfl, Nat.zero_mod] at hdigits
  have hend : (1 : UInt32) - 1 = 0 := by decide
  rw [hformat, if_pos hend, Numeral.justified, hzero] at hwrite
  rw [hwrite]
  rfl

end XenBus.Log
