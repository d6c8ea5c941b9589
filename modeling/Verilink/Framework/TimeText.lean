import Verilink.Framework.Calendar

/-!
# Time stamps as text

`Date.prototype.toISOString`, the RFC 3339 layouts of Go's `time.Parse` and the layout
`RFC3339Nano` of its `Format`, on lists of characters. Go's times are nanoseconds since the Unix
epoch, JavaScript's are milliseconds.
-/

namespace Verilink.Framework.Calendar

def epochDay : Nat := 719528

def digit (k : Nat) : Char := Char.ofNat (48 + k)

def isDigit (c : Char) : Bool := '0' ≤ c ∧ c ≤ '9'

def digitValue (c : Char) : Nat := c.toNat - 48

def fixedDigits : Nat → Nat → List Char
  | 0, _ => []
  | n + 1, v => fixedDigits n (v / 10) ++ [digit (v % 10)]

def takeDigits : Nat → Nat → List Char → Option (Nat × List Char)
  | 0, acc, s => some (acc, s)
  | _ + 1, _, [] => none
  | n + 1, acc, c :: s => if isDigit c then takeDigits n (acc * 10 + digitValue c) s else none

def expect (c : Char) : List Char → Option (List Char)
  | [] => none
  | d :: s => if d = c then some s else none

/-- `getnum` without a fixed width: one digit or two. -/
def takeHour : List Char → Option (Nat × List Char)
  | [] => none
  | [c] => if isDigit c then some (digitValue c, []) else none
  | c :: d :: s =>
    if isDigit c then
      if isDigit d then some (digitValue c * 10 + digitValue d, s)
      else some (digitValue c, d :: s)
    else none

/-- Digits beyond the ninth are dropped. -/
def fracNanos (digits : List Char) : Nat :=
  let digits := digits.take 9
  digits.foldl (fun acc c => acc * 10 + digitValue c) 0 * 10 ^ (9 - digits.length)

def takeFrac : List Char → Nat × List Char
  | c :: d :: s =>
    if (c = '.' ∨ c = ',') ∧ isDigit d then
      (fracNanos ((d :: s).takeWhile isDigit), (d :: s).dropWhile isDigit)
    else (0, c :: d :: s)
  | s => (0, s)

/-- The offset in seconds east of UTC. -/
def takeZone : List Char → Option (Int × List Char)
  | 'Z' :: s => some (0, s)
  | c :: s => do
    let (hours, s) ← takeDigits 2 0 s
    let s ← expect ':' s
    let (minutes, s) ← takeDigits 2 0 s
    if hours ≤ 24 ∧ minutes ≤ 60 then
      let offset : Int := (hours * 60 + minutes) * 60
      if c = '+' then some (offset, s) else if c = '-' then some (-offset, s) else none
    else none
  | [] => none

def instant (date : Civil) (hour minute second nanos : Nat) (offset : Int) : Int :=
  ((date.dayNumber - epochDay : Int) * 86400 + hour * 3600 + minute * 60 + second - offset) *
    1000000000 + nanos

/-- `time.Parse` with the layouts `RFC3339Nano` and `RFC3339`. -/
def parseRFC3339 (s : List Char) : Option Int := do
  let (year, s) ← takeDigits 4 0 s
  let s ← expect '-' s
  let (month, s) ← takeDigits 2 0 s
  let s ← expect '-' s
  let (day, s) ← takeDigits 2 0 s
  let s ← expect 'T' s
  let (hour, s) ← takeHour s
  let s ← expect ':' s
  let (minute, s) ← takeDigits 2 0 s
  let s ← expect ':' s
  let (second, s) ← takeDigits 2 0 s
  let (nanos, s) := takeFrac s
  let (offset, s) ← takeZone s
  if s = [] ∧ (Civil.mk year month day).Valid ∧ hour < 24 ∧ minute < 60 ∧ second < 60 then
    some (instant ⟨year, month, day⟩ hour minute second nanos offset)
  else none

def isoText (date : Civil) (hour minute second millis : Nat) : List Char :=
  fixedDigits 4 date.year ++ '-' :: (fixedDigits 2 date.month ++ '-' :: (fixedDigits 2 date.day ++
    'T' :: (fixedDigits 2 hour ++ ':' :: (fixedDigits 2 minute ++ ':' :: (fixedDigits 2 second ++
      '.' :: (fixedDigits 3 millis ++ ['Z']))))))

def toISOString (millis : Int) : List Char :=
  let ofDay := (millis % 86400000).toNat
  isoText (civilOfDay (millis / 86400000 + epochDay).toNat) (ofDay / 3600000)
    (ofDay / 60000 % 60) (ofDay / 1000 % 60) (ofDay % 1000)

theorem digit_spec {k : Nat} (h : k < 10) :
    isDigit (digit k) = true ∧ digitValue (digit k) = k := by
  have hall : ∀ k : Fin 10, isDigit (digit k) = true ∧ digitValue (digit k) = k.val := by decide
  exact hall ⟨k, h⟩

theorem takeDigits_append (n m acc : Nat) (s : List Char) :
    takeDigits (n + m) acc s = (takeDigits n acc s).bind fun r => takeDigits m r.1 r.2 := by
  induction n generalizing acc s with
  | zero => simp [takeDigits]
  | succ n ih =>
    rw [Nat.succ_add]
    cases s with
    | nil => rfl
    | cons c s =>
      simp only [takeDigits]
      split
      · exact ih _ s
      · rfl

theorem takeDigits_fixedDigits (n v acc : Nat) (s : List Char) (h : v < 10 ^ n) :
    takeDigits n acc (fixedDigits n v ++ s) = some (acc * 10 ^ n + v, s) := by
  induction n generalizing v s with
  | zero =>
    have hv : v = 0 := by simpa using h
    simp [takeDigits, fixedDigits, hv]
  | succ n ih =>
    have hdigit := digit_spec (Nat.mod_lt v (by omega : 0 < 10))
    have hdiv : v / 10 < 10 ^ n := by
      rw [Nat.div_lt_iff_lt_mul (by omega)]
      rwa [pow_succ] at h
    rw [takeDigits_append n 1, fixedDigits, List.append_assoc, ih _ _ hdiv]
    simp only [Option.bind_some, List.singleton_append, takeDigits, hdigit.1, hdigit.2, if_true,
      Option.some.injEq, Prod.mk.injEq, and_true]
    rw [pow_succ]
    have := Nat.div_add_mod v 10
    ring_nf
    omega

theorem takeDigits_written {n v : Nat} {s : List Char} (h : v < 10 ^ n) :
    takeDigits n 0 (fixedDigits n v ++ s) = some (v, s) := by
  simpa using takeDigits_fixedDigits n v 0 s h

theorem expect_cons (c : Char) (s : List Char) : expect c (c :: s) = some s := by
  simp [expect]

theorem takeHour_fixedDigits (h : Nat) (s : List Char) (hh : h < 100) :
    takeHour (fixedDigits 2 h ++ s) = some (h, s) := by
  have htens := digit_spec (k := h / 10 % 10) (by omega)
  have hones := digit_spec (k := h % 10) (by omega)
  simp only [fixedDigits, List.nil_append, List.cons_append, takeHour,
    htens.1, hones.1, if_true, htens.2, hones.2, Option.some.injEq, Prod.mk.injEq, and_true]
  omega

theorem takeFrac_millis (millis : Nat) (h : millis < 1000) :
    takeFrac ('.' :: (fixedDigits 3 millis ++ ['Z'])) = (millis * 1000000, ['Z']) := by
  have h₁ := digit_spec (k := millis / 10 / 10 % 10) (by omega)
  have h₂ := digit_spec (k := millis / 10 % 10) (by omega)
  have h₃ := digit_spec (k := millis % 10) (by omega)
  have hz : isDigit 'Z' = false := by decide
  simp only [fixedDigits, List.nil_append, List.cons_append, takeFrac,
    h₁.1, true_or, and_self, if_true, List.takeWhile_cons, List.dropWhile_cons, h₂.1, h₃.1, hz,
    Bool.false_eq_true, if_false, fracNanos, List.take, List.foldl, List.length, h₁.2, h₂.2, h₃.2,
    Prod.mk.injEq, and_true]
  omega

theorem parseRFC3339_civil (date : Civil) (hour minute second nanos : Nat) (tail : List Char)
    (hdate : date.Valid) (hyear : date.year < 10000) (hhour : hour < 24) (hminute : minute < 60)
    (hsecond : second < 60) (htail : takeFrac tail = (nanos, ['Z'])) :
    parseRFC3339 (fixedDigits 4 date.year ++ '-' :: (fixedDigits 2 date.month ++ '-' ::
      (fixedDigits 2 date.day ++ 'T' :: (fixedDigits 2 hour ++ ':' :: (fixedDigits 2 minute ++
        ':' :: (fixedDigits 2 second ++ tail)))))) =
      some (instant date hour minute second nanos 0) := by
  obtain ⟨year, month, day⟩ := date
  have hmonth : month < 100 := by
    have := hdate.2.1
    simp only at this
    omega
  have hday : day < 100 := by
    have hle := hdate.2.2.2
    have hmax : ∀ leap : Bool, ∀ m : Fin 13,
        daysBeforeMonth leap m - daysBeforeMonth leap (m - 1) ≤ 31 := by decide
    have hthis := hmax (isLeap year) ⟨month, Nat.lt_succ_of_le hdate.2.1⟩
    simp only [daysInMonth] at hle hthis
    omega
  rw [parseRFC3339]
  refine Option.bind_eq_some_iff.mpr ⟨_, takeDigits_written hyear, ?_⟩
  refine Option.bind_eq_some_iff.mpr ⟨_, expect_cons '-' _, ?_⟩
  refine Option.bind_eq_some_iff.mpr ⟨_, takeDigits_written hmonth, ?_⟩
  refine Option.bind_eq_some_iff.mpr ⟨_, expect_cons '-' _, ?_⟩
  refine Option.bind_eq_some_iff.mpr ⟨_, takeDigits_written hday, ?_⟩
  refine Option.bind_eq_some_iff.mpr ⟨_, expect_cons 'T' _, ?_⟩
  refine Option.bind_eq_some_iff.mpr ⟨_, takeHour_fixedDigits hour _ (by omega), ?_⟩
  refine Option.bind_eq_some_iff.mpr ⟨_, expect_cons ':' _, ?_⟩
  refine Option.bind_eq_some_iff.mpr ⟨_, takeDigits_written (by omega), ?_⟩
  refine Option.bind_eq_some_iff.mpr ⟨_, expect_cons ':' _, ?_⟩
  refine Option.bind_eq_some_iff.mpr ⟨_, takeDigits_written (by omega), ?_⟩
  dsimp only
  rw [htail]
  exact if_pos ⟨rfl, hdate, hhour, hminute, hsecond⟩

theorem parseRFC3339_isoText (date : Civil) (hour minute second millis : Nat)
    (hdate : date.Valid) (hyear : date.year < 10000) (hhour : hour < 24) (hminute : minute < 60)
    (hsecond : second < 60) (hmillis : millis < 1000) :
    parseRFC3339 (isoText date hour minute second millis) =
      some (instant date hour minute second (millis * 1000000) 0) :=
  parseRFC3339_civil date hour minute second _ _ hdate hyear hhour hminute hsecond
    (takeFrac_millis millis hmillis)

theorem yearOfDay_lt {n y : Nat} (h : n < daysBeforeYear y) : yearOfDay n < y := by
  have hmono : Monotone daysBeforeYear := by
    apply monotone_nat_of_le_succ
    intro y
    rw [daysBeforeYear_succ]
    omega
  by_contra hge
  have hle := hmono (not_lt.mp hge)
  have := (yearOfDay_spec n).1
  omega

theorem parseRFC3339_toISOString (millis : Int) (hlow : -62167219200000 ≤ millis)
    (hhigh : millis < 253402300800000) :
    parseRFC3339 (toISOString millis) = some (millis * 1000000) := by
  have hday : 0 ≤ millis / 86400000 + epochDay ∧ millis / 86400000 + epochDay < 3652425 := by
    unfold epochDay
    omega
  have hrest : 0 ≤ millis % 86400000 ∧ millis % 86400000 < 86400000 := by omega
  obtain ⟨hnumber, hvalid⟩ := civilOfDay_spec (millis / 86400000 + epochDay).toNat
  have hyear : (civilOfDay (millis / 86400000 + epochDay).toNat).year < 10000 := by
    apply yearOfDay_lt
    have h10000 : daysBeforeYear 10000 = 3652425 := by decide
    omega
  unfold toISOString
  rw [parseRFC3339_isoText _ _ _ _ _ hvalid hyear (by omega) (by omega) (by omega) (by omega)]
  simp only [instant, hnumber, Option.some.injEq]
  omega

/-! ## Time stamps with nanoseconds -/

structure Date where
  year : Int
  month : Nat
  day : Nat

/-- The date of a day before or after the epoch; the calendar repeats every 400 years. -/
def dateOfDay (n : Int) : Date :=
  let c := civilOfDay (n % 146097).toNat
  ⟨400 * (n / 146097) + c.year, c.month, c.day⟩

/-- Go pads a year to four digits and writes longer ones in full. -/
def yearText (y : Int) : List Char :=
  (if y < 0 then ['-'] else []) ++
    if y.natAbs < 10000 then fixedDigits 4 y.natAbs else Nat.toDigits 10 y.natAbs

/-- The digits of a fraction without the zeros at its end. -/
def fracDigits : Nat → Nat → List Char
  | 0, _ => []
  | k + 1, n => if n % 10 = 0 then fracDigits k (n / 10) else fixedDigits (k + 1) n

def nanosText (nanos : Nat) : List Char :=
  if nanos = 0 then [] else '.' :: fracDigits 9 nanos

def rfc3339NanoText (date : Date) (hour minute second nanos : Nat) : List Char :=
  yearText date.year ++ '-' :: (fixedDigits 2 date.month ++ '-' :: (fixedDigits 2 date.day ++
    'T' :: (fixedDigits 2 hour ++ ':' :: (fixedDigits 2 minute ++ ':' :: (fixedDigits 2 second ++
      (nanosText nanos ++ ['Z']))))))

/-- `Format(time.RFC3339Nano)` of a UTC time. -/
def formatRFC3339Nano (t : Int) : List Char :=
  let ofDay := (t % 86400000000000).toNat
  rfc3339NanoText (dateOfDay (t / 86400000000000 + epochDay)) (ofDay / 3600000000000)
    (ofDay / 60000000000 % 60) (ofDay / 1000000000 % 60) (ofDay % 1000000000)

/-- The years 0 to 9999, which `time.Time` marshals. -/
def FourDigitYear (t : Int) : Prop := -62167219200000000000 ≤ t ∧ t < 253402300800000000000

instance (t : Int) : Decidable (FourDigitYear t) := inferInstanceAs (Decidable (_ ∧ _))

def isStampChar (c : Char) : Bool := c.isDigit ∨ c ∈ ['-', ':', 'T', '.', 'Z']

theorem digit_isDigit {k : Nat} (h : k < 10) : (digit k).isDigit = true := by
  have hall : ∀ k : Fin 10, (digit k).isDigit = true := by decide
  exact hall ⟨k, h⟩

theorem fixedDigits_isDigit (n v : Nat) : ∀ c ∈ fixedDigits n v, c.isDigit = true := by
  induction n generalizing v with
  | zero => simp [fixedDigits]
  | succ n ih =>
    intro c hc
    rcases List.mem_append.mp hc with hc | hc
    · exact ih _ c hc
    · rw [List.mem_singleton.mp hc]
      exact digit_isDigit (Nat.mod_lt v (by omega))

theorem fracDigits_isDigit (n v : Nat) : ∀ c ∈ fracDigits n v, c.isDigit = true := by
  induction n generalizing v with
  | zero => simp [fracDigits]
  | succ n ih =>
    rw [fracDigits]
    split
    · exact ih _
    · exact fixedDigits_isDigit _ _

theorem yearText_stamp (y : Int) : ∀ c ∈ yearText y, isStampChar c = true := by
  have hdigits : ∀ c ∈ Nat.toDigits 10 y.natAbs, c.isDigit = true := fun c hc =>
    Nat.isDigit_of_mem_toDigits (by decide) (by decide) hc
  intro c hc
  rcases List.mem_append.mp hc with hc | hc
  · split at hc
    · rw [List.mem_singleton.mp hc]
      decide
    · cases hc
  · split at hc
    · simp [isStampChar, fixedDigits_isDigit _ _ c hc]
    · simp [isStampChar, hdigits c hc]

theorem formatRFC3339Nano_stamp (t : Int) : ∀ c ∈ formatRFC3339Nano t, isStampChar c = true := by
  have hdigits : ∀ n v, ∀ c ∈ fixedDigits n v, isStampChar c = true := by
    intro n v c hc
    simp [isStampChar, fixedDigits_isDigit n v c hc]
  have hnanos : ∀ n, ∀ c ∈ nanosText n, isStampChar c = true := by
    intro n c hc
    rw [nanosText] at hc
    split at hc
    · cases hc
    · rcases List.mem_cons.mp hc with rfl | hc
      · decide
      · simp [isStampChar, fracDigits_isDigit _ _ c hc]
  have hsign : isStampChar '-' = true ∧ isStampChar 'T' = true ∧ isStampChar ':' = true ∧
      isStampChar 'Z' = true := by decide
  simp only [formatRFC3339Nano, rfc3339NanoText, List.forall_mem_append, List.forall_mem_cons]
  exact ⟨yearText_stamp _, hsign.1, hdigits _ _, hsign.1, hdigits _ _, hsign.2.1, hdigits _ _,
    hsign.2.2.1, hdigits _ _, hsign.2.2.1, hdigits _ _, hnanos _, hsign.2.2.2,
    List.forall_mem_nil _⟩

theorem daysBeforeYear_add (y k : Nat) :
    daysBeforeYear (y + 400 * k) = daysBeforeYear y + 146097 * k := by
  unfold daysBeforeYear
  omega

theorem isLeap_add (y k : Nat) : isLeap (y + 400 * k) = isLeap y := by
  have h₄ : (y + 400 * k) % 4 = y % 4 := by omega
  have h₁₀₀ : (y + 400 * k) % 100 = y % 100 := by omega
  have h₄₀₀ : (y + 400 * k) % 400 = y % 400 := by omega
  rw [isLeap, isLeap, h₄, h₁₀₀, h₄₀₀]

theorem dateOfDay_spec {n : Int} (hlo : 0 ≤ n) (hhi : n < 3652425) :
    ∃ c : Civil, dateOfDay n = ⟨c.year, c.month, c.day⟩ ∧ c.Valid ∧ c.year < 10000 ∧
      (c.dayNumber : Int) = n := by
  obtain ⟨hnumber, hvalid⟩ := civilOfDay_spec (n % 146097).toNat
  have hyear : (civilOfDay (n % 146097).toNat).year < 400 := by
    apply yearOfDay_lt
    have h400 : daysBeforeYear 400 = 146097 := by decide
    omega
  revert hnumber hvalid hyear
  rw [dateOfDay]
  generalize civilOfDay (n % 146097).toNat = c
  intro hnumber hvalid hyear
  obtain ⟨year, month, day⟩ := c
  have hk : n / 146097 = ((n / 146097).toNat : Int) := by omega
  refine ⟨⟨year + 400 * (n / 146097).toNat, month, day⟩, ?_, ?_, ?_, ?_⟩
  · simp only [Date.mk.injEq, and_true]
    push_cast
    omega
  · simpa [Civil.Valid, daysInMonth, isLeap_add] using hvalid
  · dsimp only at hyear ⊢
    omega
  · simp only [Civil.dayNumber, isLeap_add, daysBeforeYear_add] at hnumber ⊢
    omega

theorem value_fixedDigits (n v acc : Nat) (h : v < 10 ^ n) :
    (fixedDigits n v).foldl (fun acc c => acc * 10 + digitValue c) acc = acc * 10 ^ n + v := by
  induction n generalizing v with
  | zero =>
    have hv : v = 0 := by simpa using h
    simp [fixedDigits, hv]
  | succ n ih =>
    have hdiv : v / 10 < 10 ^ n := by
      rw [Nat.div_lt_iff_lt_mul (by omega)]
      rwa [pow_succ] at h
    rw [fixedDigits, List.foldl_append, ih _ hdiv]
    simp only [List.foldl_cons, List.foldl_nil, (digit_spec (Nat.mod_lt v (by omega : 0 < 10))).2,
      pow_succ]
    have := Nat.div_add_mod v 10
    ring_nf
    omega

theorem length_fixedDigits (n v : Nat) : (fixedDigits n v).length = n := by
  induction n generalizing v with
  | zero => rfl
  | succ n ih => simp [fixedDigits, ih]

theorem fracDigits_spec (k n : Nat) (hpos : n ≠ 0) (h : n < 10 ^ k) :
    ∃ j m, 0 < j ∧ j ≤ k ∧ m < 10 ^ j ∧ fracDigits k n = fixedDigits j m ∧ m * 10 ^ (k - j) = n := by
  induction k generalizing n with
  | zero =>
    rw [pow_zero] at h
    omega
  | succ k ih =>
    rw [fracDigits]
    split
    · rename_i hzero
      have hlt : n / 10 < 10 ^ k := by
        rw [Nat.div_lt_iff_lt_mul (by omega)]
        rwa [pow_succ] at h
      obtain ⟨j, m, hj, hjk, hm, hdigits, hvalue⟩ := ih (n / 10) (by omega) hlt
      refine ⟨j, m, hj, by omega, hm, hdigits, ?_⟩
      rw [Nat.succ_sub hjk, pow_succ, ← Nat.mul_assoc, hvalue]
      omega
    · exact ⟨k + 1, n, by omega, le_rfl, h, rfl, by simp⟩

theorem takeFrac_nanosText {nanos : Nat} (h : nanos < 1000000000) :
    takeFrac (nanosText nanos ++ ['Z']) = (nanos, ['Z']) := by
  rw [nanosText]
  split
  · rename_i hzero
    rw [hzero]
    rfl
  · rename_i hpos
    obtain ⟨j, m, hj, hj9, hm, hdigits, hvalue⟩ := fracDigits_spec 9 nanos hpos h
    have hall : ∀ c ∈ fixedDigits j m, isDigit c = true := by
      intro c hc
      have hdigit := fixedDigits_isDigit j m c hc
      simpa [isDigit, Char.isDigit, Char.le_def] using hdigit
    have hz : isDigit 'Z' = false := by decide
    have htake : (fixedDigits j m ++ ['Z']).takeWhile isDigit = fixedDigits j m := by
      rw [List.takeWhile_append_of_pos hall]
      simp [hz]
    have hdrop : (fixedDigits j m ++ ['Z']).dropWhile isDigit = ['Z'] := by
      rw [List.dropWhile_append_of_pos hall]
      simp [hz]
    have hfrac : fracNanos (fixedDigits j m) = nanos := by
      have hlen := length_fixedDigits j m
      rw [fracNanos, List.take_of_length_le (by omega)]
      simp only [value_fixedDigits j m 0 hm, hlen, Nat.zero_mul, Nat.zero_add]
      exact hvalue
    obtain ⟨d, rest, hcons⟩ : ∃ d rest, fixedDigits j m = d :: rest := by
      apply List.exists_cons_of_ne_nil
      intro hnil
      have hlen := length_fixedDigits j m
      rw [hnil] at hlen
      simp only [List.length_nil] at hlen
      omega
    have hd : isDigit d = true := hall d (by simp [hcons])
    rw [hdigits, List.cons_append]
    rw [hcons, List.cons_append] at htake hdrop ⊢
    rw [takeFrac, if_pos ⟨.inl rfl, hd⟩, htake, hdrop, ← hcons, hfrac]

theorem parseRFC3339_formatRFC3339Nano {t : Int} (h : FourDigitYear t) :
    parseRFC3339 (formatRFC3339Nano t) = some t := by
  obtain ⟨hlow, hhigh⟩ := h
  have hday : 0 ≤ t / 86400000000000 + epochDay ∧ t / 86400000000000 + epochDay < 3652425 := by
    unfold epochDay
    omega
  have hrest : 0 ≤ t % 86400000000000 ∧ t % 86400000000000 < 86400000000000 := by omega
  obtain ⟨c, hdate, hvalid, hyear, hnumber⟩ := dateOfDay_spec hday.1 hday.2
  have hyearText : yearText c.year = fixedDigits 4 c.year := by
    simp [yearText, hyear]
  have hnanos : takeFrac (nanosText ((t % 86400000000000).toNat % 1000000000) ++ ['Z']) = _ :=
    takeFrac_nanosText (by omega)
  simp only [formatRFC3339Nano, hdate, rfc3339NanoText, hyearText]
  rw [parseRFC3339_civil c _ _ _ _ _ hvalid hyear (by omega) (by omega) (by omega) hnanos]
  simp only [instant, hnumber, Option.some.injEq]
  omega

theorem parseRFC3339_of_year {s : List Char}
    (h : ∀ y r, takeDigits 4 0 s = some (y, r) → expect '-' r = none) : parseRFC3339 s = none := by
  unfold parseRFC3339
  cases htake : takeDigits 4 0 s with
  | none => rfl
  | some p =>
    obtain ⟨y, r⟩ := p
    show (expect '-' r >>= _) = none
    rw [h y r htake]
    rfl

theorem parseRFC3339_yearText {y : Int} (h : y < 0 ∨ 10000 ≤ y) (s : List Char) :
    parseRFC3339 (yearText y ++ s) = none := by
  rcases h with hneg | hbig
  · have htake : takeDigits 4 0 (yearText y ++ s) = none := by
      have hminus : isDigit '-' = false := by decide
      simp [yearText, hneg, takeDigits, hminus]
    apply parseRFC3339_of_year
    simp [htake]
  · have hfull : yearText y = Nat.toDigits 10 y.natAbs := by
      have hpos : ¬ y < 0 := by omega
      have hlong : ¬ y.natAbs < 10000 := by omega
      simp [yearText, hpos, hlong]
    have hlength : ¬ (Nat.toDigits 10 y.natAbs).length ≤ 4 := by
      rw [Nat.length_toDigits_le_iff (by decide) (by decide)]
      omega
    have hdigits : ∀ c ∈ Nat.toDigits 10 y.natAbs, isDigit c = true := by
      intro c hc
      have hdigit := Nat.isDigit_of_mem_toDigits (by decide) (by decide) hc
      simpa [isDigit, Char.isDigit, Char.le_def] using hdigit
    rw [hfull]
    match hds : Nat.toDigits 10 y.natAbs with
    | a :: b :: c :: d :: e :: ds =>
      rw [hds] at hdigits
      -- Where the dash should be there is a fifth digit.
      have hdash : expect '-' (e :: (ds ++ s)) = none := by
        have he : isDigit e = true := hdigits e (by simp)
        have hne : e ≠ '-' := by
          rintro rfl
          exact absurd he (by decide)
        simp [expect, hne]
      have htake : takeDigits 4 0 (a :: b :: c :: d :: e :: ds ++ s) =
          some (((digitValue a * 10 + digitValue b) * 10 + digitValue c) * 10 + digitValue d,
            e :: (ds ++ s)) := by
        simp [takeDigits, hdigits]
      apply parseRFC3339_of_year
      intro y r hr
      rw [htake] at hr
      cases hr
      exact hdash
    | [a, b, c, d] => simp [hds] at hlength
    | [a, b, c] => simp [hds] at hlength
    | [a, b] => simp [hds] at hlength
    | [a] => simp [hds] at hlength
    | [] => simp [hds] at hlength

theorem dateOfDay_year (n : Int) : (n < 0 → (dateOfDay n).year < 0) ∧
    (3652425 ≤ n → 10000 ≤ (dateOfDay n).year) := by
  have hyear : (civilOfDay (n % 146097).toNat).year < 400 := by
    apply yearOfDay_lt
    have h400 : daysBeforeYear 400 = 146097 := by decide
    omega
  simp only [dateOfDay]
  omega

theorem parseRFC3339_eq_none {t : Int} (h : ¬ FourDigitYear t) :
    parseRFC3339 (formatRFC3339Nano t) = none := by
  have hday : t / 86400000000000 + epochDay < 0 ∨ 3652425 ≤ t / 86400000000000 + epochDay := by
    unfold FourDigitYear at h
    unfold epochDay
    omega
  rw [formatRFC3339Nano, rfc3339NanoText]
  apply parseRFC3339_yearText
  exact hday.imp (dateOfDay_year _).1 (dateOfDay_year _).2

end Verilink.Framework.Calendar
