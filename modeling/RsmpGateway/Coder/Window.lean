import RsmpGateway.Coder.RoundTrip

/-!
# The time window

`ptxt_is_valid` narrows the difference of two dates to an `int`, and takes its absolute value. So
it admits the texts of the window, and those whose difference comes close to another multiple of
2^32 ms, or is the least `int` (`ptxtIsValid_window_iff`).

The condition is on the difference alone (`NoAlias`). It is stated for a plain text, and for what
is read of a frame, whose elements are tested at the time that each of them is decoded.
-/

namespace RsmpGateway.Coder

open RsmpGateway.Lib RsmpGateway.Auth RsmpGateway.Crypt

/-! ## Narrowing

The absolute value of the least `int` is itself, which is below every bound. -/

/-- The difference is not in the window around another multiple of 2^32, and is not halfway
between two of them. -/
structure NoAlias (window diff : Int) : Prop where
  multiple : ∀ k : Int, k ≠ 0 → window < (diff - k * 2 ^ 32).natAbs
  halfway : diff % 2 ^ 32 ≠ 2 ^ 31

theorem absInt_le_iff {window diff : Int} (hW : 0 < window ∧ window < 2 ^ 31) :
    absInt diff ≤ window ↔
      diff % 2 ^ 32 = 2 ^ 31 ∨ ∃ k : Int, (diff - k * 2 ^ 32).natAbs ≤ window := by
  have hbmod : ∃ k, diff.bmod (2 ^ 32) = diff - k * 2 ^ 32 :=
    ⟨(diff - diff.bmod (2 ^ 32)) / 2 ^ 32, by rw [Int.bmod_def]; omega⟩
  have hrange : -2 ^ 31 ≤ diff.bmod (2 ^ 32) ∧ diff.bmod (2 ^ 32) < 2 ^ 31 := by
    rw [Int.bmod_def]; omega
  have hleast : diff.bmod (2 ^ 32) = -2 ^ 31 ↔ diff % 2 ^ 32 = 2 ^ 31 := by
    rw [Int.bmod_def]; omega
  obtain ⟨k, hk⟩ := hbmod
  rw [absInt]
  by_cases h : diff.bmod (2 ^ 32) = -2 ^ 31
  · rw [if_pos h]
    exact ⟨fun _ => .inl (hleast.mp h), fun _ => by omega⟩
  · rw [if_neg h, hk]
    constructor
    · intro hle
      exact .inr ⟨k, hle⟩
    · rintro (hdiff | ⟨k', hk'⟩)
      · exact absurd (hleast.mpr hdiff) h
      · -- two multiples that are both close to the difference are the same
        obtain rfl : k' = k := by omega
        exact hk'

/-- What is admitted is what is in the window, unless the difference is taken for another one. -/
theorem absInt_window_iff {window diff : Int} (hW : 0 < window ∧ window < 2 ^ 31) :
    (absInt diff ≤ window ↔ diff.natAbs ≤ window) ↔ NoAlias window diff := by
  rw [absInt_le_iff hW]
  constructor
  · intro h
    constructor
    · intro k hk
      by_contra hle
      have hwindow := h.mp (.inr ⟨k, by omega⟩)
      omega
    · intro hhalf
      have hwindow := h.mp (.inl hhalf)
      omega
  · intro h
    constructor
    · rintro (hhalf | ⟨k, hk⟩)
      · exact absurd hhalf h.halfway
      · by_cases hk0 : k = 0
        · simpa [hk0] using hk
        · exact absurd hk (Int.not_le.mpr (h.multiple k hk0))
    · intro hwindow
      exact .inr ⟨0, by simpa using hwindow⟩

/-! ## Plain texts

The age is the difference in milliseconds, as an integer. -/

section Texts

variable {X : CoderExt}

/-- The difference of a plain text with a time. -/
def ageMs (X : TextExt) (now : HoroDate) (ptxt : Ptxt) : Int := X.diffHorodateMs ptxt.timestamp now

/-- The text has a marker. -/
def Ptxt.Marked (ptxt : Ptxt) : Prop :=
  (strstr ptxt.original externalMark || strstr ptxt.original internalMark) = true

theorem timeAdmitted_iff {X : TextExt} (hW : 0 < X.timeWindows) (now : HoroDate) (ptxt : Ptxt) :
    timeAdmitted X now ptxt.timestamp = true ↔ absInt (ageMs X now ptxt) ≤ X.timeWindows := by
  simp [timeAdmitted, ageMs, hW]

theorem ptxtIsValid_iff {X : TextExt} (hW : 0 < X.timeWindows) (now : HoroDate) {ptxt : Ptxt}
    (hmarked : ptxt.Marked) :
    ptxtIsValid X now ptxt = true ↔ absInt (ageMs X now ptxt) ≤ X.timeWindows := by
  rw [← timeAdmitted_iff hW, ptxtIsValid, show (_ || _) = true from hmarked, Bool.and_true]

/-- A text that is read was valid. -/
theorem ptxtIsValid_of_readPtxt {now : HoroDate} {text : Bytes} {ptxt : Ptxt}
    (h : readPtxt X now text = .ok (some ptxt)) : ptxtIsValid X.toTextExt now ptxt = true := by
  unfold readPtxt at h
  split at h
  · split at h
    · next hvalid =>
      cases h
      exact hvalid
    · cases h
  · cases h
  · cases h

theorem ptxtIsValid_of_decodeElement {cipher : Cipher} {sIdLocal : Bytes} {now : HoroDate}
    {login sId : Option Bytes} {e : Json} {db : AuthDbs} {ptxt : Ptxt}
    (h : (decodeElement X cipher sIdLocal now login sId e db).1 = .ok (some ptxt)) :
    ptxtIsValid X.toTextExt now ptxt = true := by
  unfold decodeElement at h
  split at h
  · exact ptxtIsValid_of_readPtxt h
  · cases h
  · cases h

theorem Ptxt.Marked.of_valid {X : TextExt} {now : HoroDate} {ptxt : Ptxt}
    (h : ptxtIsValid X now ptxt = true) : ptxt.Marked := by
  rw [ptxtIsValid, Bool.and_eq_true] at h
  exact h.2

/-- The text is read of an element of the frame, the `i`-th. -/
def ReadOf (X : CoderExt) (cipher : Cipher) (sIdLocal payload : Bytes) (now : Nat → HoroDate)
    (db : AuthDbs) (i : Nat) (ptxt : Ptxt) : Prop :=
  ∃ header e, frameHeader X payload = .ok header ∧ header.data[i]? = some e ∧
    (decodeElement X cipher sIdLocal (now i) header.login header.sId e db).1 = .ok (some ptxt)

/-- Each text that a frame gives is read of one of its elements. -/
theorem readOf_of_encryptedDecode {cipher : Cipher} {sIdLocal payload : Bytes}
    {now : Nat → HoroDate} {db db' : AuthDbs} {ptxts : List Ptxt} {auth : Option AuthKey}
    (h : encryptedDecode X cipher sIdLocal payload now db = (.ok (ptxts, auth), db')) :
    ∀ ptxt ∈ ptxts, ∃ i, ReadOf X cipher sIdLocal payload now db i ptxt := by
  unfold encryptedDecode at h
  split at h
  · cases h
  · cases h
  · next login sId data hheader =>
    dsimp only at h
    split at h
    · cases h
    · cases h
    · cases h
    · next hrun =>
      cases h
      intro ptxt hptxt
      obtain ⟨i, e, he, helem⟩ := (mem_decodeElements X cipher sIdLocal hrun ptxt).mp hptxt
      exact ⟨i, _, e, hheader, he, helem⟩

/-- **The time window.** A text that is marked is accepted when it is in the window, and what a
frame gives is in the window when its element is read, exactly when the difference is not taken
for another one. -/
theorem ptxtIsValid_window_iff (X : CoderExt)
    (hW : 0 < X.timeWindows ∧ X.timeWindows < 2 ^ 31) :
    (∀ (now : HoroDate) (ptxt : Ptxt), ptxt.Marked →
      ((ptxtIsValid X.toTextExt now ptxt = true ↔
          (ageMs X.toTextExt now ptxt).natAbs ≤ X.timeWindows) ↔
        NoAlias X.timeWindows (ageMs X.toTextExt now ptxt))) ∧
    ∀ (cipher : Cipher) (sIdLocal payload : Bytes) (now : Nat → HoroDate) (db db' : AuthDbs)
      (ptxts : List Ptxt) (auth : Option AuthKey),
      encryptedDecode X cipher sIdLocal payload now db = (.ok (ptxts, auth), db') →
      ∀ ptxt ∈ ptxts, ∃ i, ReadOf X cipher sIdLocal payload now db i ptxt ∧
        ((ageMs X.toTextExt (now i) ptxt).natAbs ≤ X.timeWindows ↔
          NoAlias X.timeWindows (ageMs X.toTextExt (now i) ptxt)) := by
  constructor
  · intro now ptxt hmarked
    rw [ptxtIsValid_iff hW.1 now hmarked, absInt_window_iff hW]
  · intro cipher sIdLocal payload now db db' ptxts auth h ptxt hptxt
    obtain ⟨i, hread⟩ := readOf_of_encryptedDecode h ptxt hptxt
    have hvalid : ptxtIsValid X.toTextExt (now i) ptxt = true := by
      obtain ⟨header, e, -, -, helem⟩ := hread
      exact ptxtIsValid_of_decodeElement helem
    have hadmitted := (ptxtIsValid_iff hW.1 (now i) (.of_valid hvalid)).mp hvalid
    refine ⟨i, hread, ?_⟩
    rw [← absInt_window_iff hW]
    exact ⟨fun hwindow => iff_of_true hadmitted hwindow, fun h => h.mp hadmitted⟩

end Texts

/-! ### A text of seven weeks ago

A text of a minute ago, and one whose age is a multiple of 2^32 ms. -/

/-- A coder with a window of a minute. -/
def minuteExt : CoderExt := { plainExt [] with timeWindows := 60000 }

/-- A text with a time. -/
def datedText (sec : Int) : Ptxt := ⟨internalMark, .internal, ⟨sec, 0⟩⟩

theorem datedText_marked (sec : Int) : (datedText sec).Marked := by
  have hmark : strstr internalMark internalMark = true := by decide
  simp [Ptxt.Marked, datedText, hmark]

/-- A text of half a minute ago. -/
theorem ptxtIsValid_window_recent :
    ptxtIsValid minuteExt.toTextExt ⟨1000030, 0⟩ (datedText 1000000) = true := by
  have hwindow := (ptxtIsValid_window_iff minuteExt (by decide)).1 ⟨1000030, 0⟩
    (datedText 1000000) (datedText_marked _)
  have hage : ageMs minuteExt.toTextExt ⟨1000030, 0⟩ (datedText 1000000) = -30000 := by
    decide
  rw [hage] at hwindow
  refine (hwindow.mpr ⟨fun k hk => ?_, by decide⟩).mpr (by decide)
  show (60000 : Int) < _
  omega

/-- A text that was made 2^32 ms ago is accepted. -/
theorem not_ptxtIsValid_window :
    (datedText 1000000).Marked ∧
      ¬ (ptxtIsValid minuteExt.toTextExt ⟨5294967, 296000000⟩ (datedText 1000000) = true ↔
        (ageMs minuteExt.toTextExt ⟨5294967, 296000000⟩ (datedText 1000000)).natAbs ≤
          minuteExt.timeWindows) := by
  have hage : ageMs minuteExt.toTextExt ⟨5294967, 296000000⟩ (datedText 1000000) = -2 ^ 32 := by
    decide
  refine ⟨datedText_marked _, fun h => ?_⟩
  have hvalid := (ptxtIsValid_iff (X := minuteExt.toTextExt) (by decide) ⟨5294967, 296000000⟩
    (datedText_marked 1000000)).mpr (by rw [hage]; decide)
  have hle := h.mp hvalid
  rw [hage] at hle
  exact absurd hle (by decide)

end RsmpGateway.Coder
