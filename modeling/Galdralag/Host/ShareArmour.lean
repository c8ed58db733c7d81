import Galdralag.Cipher.DomainSeparation
import Galdralag.Foundation.Base64
import Galdralag.Host.ShamirOps
import Galdralag.Host.Text

/-!
# Armoured shares

A share leaves the host as text: a frame, a header, an empty line and the value in base64. The
parser goes through the lines, trims each and decides by its beginning what it is. So a line of the
value must not begin like a header, and a header must not look like a line of the value; neither can
happen, because every header has a colon and base64 has none.

How base64 is written and read is a library's business.
-/

set_option linter.all false

namespace Galdralag.Host

/-- A library for base64. -/
structure Base64Engine where
  encode : Bytes → List Char
  decode : List Char → Except String Bytes

/-- What is documented of the library: what it writes it reads, and it writes the usual alphabet. -/
structure Base64Engine.Standard (engine : Base64Engine) : Prop where
  decode_encode : ∀ bs, engine.decode (engine.encode bs) = .ok bs
  alphabet : ∀ bs, ∀ c ∈ engine.encode bs, c.isAlphanum = true ∨ c ∈ ['+', '/', '=']

/-! ## Numbers -/

/-- A byte in decimal. -/
def showU8 (n : UInt8) : List Char :=
  if n < 10 then [Char.ofNat (48 + n.toNat)]
  else if n < 100 then [Char.ofNat (48 + n.toNat / 10), Char.ofNat (48 + n.toNat % 10)]
  else [Char.ofNat (48 + n.toNat / 100), Char.ofNat (48 + n.toNat / 10 % 10),
    Char.ofNat (48 + n.toNat % 10)]

/-- Read one more digit of a byte. -/
def pushDigit (acc : ℕ) (c : Char) : Option ℕ :=
  if 48 ≤ c.toNat ∧ c.toNat ≤ 57 then
    if acc * 10 + (c.toNat - 48) < 256 then some (acc * 10 + (c.toNat - 48)) else none
  else none

/-- A byte in decimal, with or without a plus sign. -/
def parseU8 (s : List Char) : Option UInt8 :=
  let digits := if s.head? = some '+' then s.tail else s
  if digits = [] then none else (digits.foldlM pushDigit 0).map UInt8.ofNat

/-! ## Writing -/

def beginLine : List Char := "-----BEGIN GALDRA SHARE-----".toList

def endLine : List Char := "-----END GALDRA SHARE-----".toList

/-- A line of the header. -/
def headerLine (key : String) (field : List Char) : List Char := key.toList ++ ' ' :: field

namespace ShamirShareExport

/-- The lines before the value. -/
def headerLines (share : ShamirShareExport) : List (List Char) :=
  [beginLine, "Version: 1".toList, headerLine "Profile:" share.profileName.toList,
    headerLine "Threshold:" (showU8 share.threshold), headerLine "Total:" (showU8 share.total),
    headerLine "Index:" (showU8 share.index), headerLine "Fingerprint:" share.fingerprint.toList,
    headerLine "Created:" share.createdAtRfc3339.toList, []]

/-- ASCII armour suitable for files and QR payloads. -/
def toArmoured (engine : Base64Engine) (share : ShamirShareExport) : List Char :=
  (share.headerLines ++ [engine.encode share.value, endLine]).flatMap fun line ↦ line ++ ['\n']

end ShamirShareExport

/-! ## Reading -/

/-- What was read so far. -/
structure ArmourState where
  profileName : Option String
  threshold : Option UInt8
  total : Option UInt8
  index : Option UInt8
  fingerprint : Option String
  created : Option String
  inBody : Bool
  b64Lines : List (List Char)

/-- Nothing was read. -/
def ArmourState.start : ArmourState := ⟨none, none, none, none, none, none, false, []⟩

/-- What stands behind a prefix. -/
def stripPrefix (key : String) (line : List Char) : Option (List Char) :=
  if key.toList.isPrefixOf line then some (line.drop key.toList.length) else none

/-- The number in a header. -/
def headerU8 (message : String) (rest : List Char) : Except GaldraError UInt8 :=
  (parseU8 (trim rest)).elim (.error (.shamir message)) .ok

/-- Read a trimmed line that is neither part of the frame nor empty. -/
def readLine (st : ArmourState) (line : List Char) : Except GaldraError ArmourState :=
  match stripPrefix "Profile:" line with
  | some rest => .ok { st with profileName := some (String.ofList (trim rest)) }
  | none => match stripPrefix "Threshold:" line with
  | some rest => do
    let n ← headerU8 "invalid Threshold" rest
    .ok { st with threshold := some n }
  | none => match stripPrefix "Total:" line with
  | some rest => do
    let n ← headerU8 "invalid Total" rest
    .ok { st with total := some n }
  | none => match stripPrefix "Index:" line with
  | some rest => do
    let n ← headerU8 "invalid Index" rest
    .ok { st with index := some n }
  | none => match stripPrefix "Fingerprint:" line with
  | some rest => .ok { st with fingerprint := some (String.ofList (trim rest)) }
  | none => match stripPrefix "Created:" line with
  | some rest => .ok { st with created := some (String.ofList (trim rest)) }
  | none =>
    if "Version:".toList.isPrefixOf line then .ok st
    else if st.inBody || !line.contains ':' && !line.isEmpty then
      .ok { st with b64Lines := st.b64Lines ++ [line] }
    else .ok st

/-- Read trimmed lines up to the end of the frame. -/
def readLines : ArmourState → List (List Char) → Except GaldraError ArmourState
  | st, [] => .ok st
  | st, line :: rest =>
    if line = beginLine then readLines st rest
    else if line = endLine then .ok st
    else if line = [] then readLines { st with inBody := true } rest
    else do
      let st ← readLine st line
      readLines st rest

namespace ShamirShareExport

/-- The share that was read, at the time `now`. -/
def ofArmourState (engine : Base64Engine) (now : String) (st : ArmourState) :
    Except GaldraError ShamirShareExport := do
  let pn ← st.profileName.elim (.error (.shamir "missing Profile")) .ok
  let idx ← st.index.elim (.error (.shamir "missing Index")) .ok
  let raw ← (engine.decode (trim st.b64Lines.flatten)).mapError fun e ↦
    GaldraError.shamir ("base64: ".append e)
  .ok {
    profileName := pn
    threshold := st.threshold.getD 1
    total := st.total.getD 1
    index := idx
    value := raw
    fingerprint := st.fingerprint.getD ""
    createdAtRfc3339 := st.created.getD now }

/-- Parse armour produced by `toArmoured`. -/
def fromArmoured (engine : Base64Engine) (now : String) (text : List Char) :
    Except GaldraError ShamirShareExport := do
  let st ← readLines .start ((lines text).map trim)
  ofArmourState engine now st

end ShamirShareExport

/-! ## Numbers are read back -/

theorem toNat_digit {d : ℕ} (h : d < 10) : (Char.ofNat (48 + d)).toNat = 48 + d := by
  have hall : ∀ d < 10, (Char.ofNat (48 + d)).toNat = 48 + d := by decide
  exact hall d h

/-- The number that digits make behind the number read so far. -/
def ofDigits (acc : ℕ) (ds : List ℕ) : ℕ := ds.foldl (fun acc d ↦ acc * 10 + d) acc

theorem le_ofDigits (acc : ℕ) (ds : List ℕ) : acc ≤ ofDigits acc ds := by
  induction ds generalizing acc with
  | nil => exact Nat.le_refl acc
  | cons d ds ih =>
    have hrest := ih (acc * 10 + d)
    rw [ofDigits, List.foldl_cons, ← ofDigits]
    omega

/-- Digits are read as their number, if it fits a byte. -/
theorem foldlM_pushDigit {ds : List ℕ} (h : ∀ d ∈ ds, d < 10) {acc : ℕ}
    (hlt : ofDigits acc ds < 256) :
    (ds.map fun d ↦ Char.ofNat (48 + d)).foldlM pushDigit acc = some (ofDigits acc ds) := by
  induction ds generalizing acc with
  | nil => rfl
  | cons d ds ih =>
    have hd := h d List.mem_cons_self
    rw [ofDigits, List.foldl_cons, ← ofDigits] at hlt
    have hacc : acc * 10 + d < 256 := Nat.lt_of_le_of_lt (le_ofDigits _ ds) hlt
    have hpush : pushDigit acc (Char.ofNat (48 + d)) = some (acc * 10 + d) := by
      rw [pushDigit, toNat_digit hd, if_pos (by omega), Nat.add_sub_cancel_left, if_pos hacc]
    rw [List.map_cons, List.foldlM_cons, hpush, Option.bind_eq_bind, Option.bind_some,
      ih (fun d' hd' ↦ h d' (List.mem_cons_of_mem d hd')) hlt]
    rfl

/-- A byte is shown as its digits. -/
theorem exists_digits (n : UInt8) : ∃ d ds, (∀ e ∈ d :: ds, e < 10) ∧
    showU8 n = (d :: ds).map (fun d ↦ Char.ofNat (48 + d)) ∧ ofDigits 0 (d :: ds) = n.toNat := by
  have hn := n.toNat_lt
  have hten : n < 10 ↔ n.toNat < 10 := UInt8.lt_iff_toNat_lt
  have hhundred : n < 100 ↔ n.toNat < 100 := UInt8.lt_iff_toNat_lt
  rw [showU8]
  split_ifs with h10 h100
  · have hlt := hten.mp h10
    refine ⟨n.toNat, [], ?_, rfl, ?_⟩
    · simpa using hlt
    · simp [ofDigits]
  · have hlt := hhundred.mp h100
    refine ⟨n.toNat / 10, [n.toNat % 10], ?_, rfl, ?_⟩
    · simp only [List.forall_mem_cons, List.not_mem_nil, false_implies, implies_true, and_true]
      omega
    · simp only [ofDigits, List.foldl_cons, List.foldl_nil]
      omega
  · refine ⟨n.toNat / 100, [n.toNat / 10 % 10, n.toNat % 10], ?_, rfl, ?_⟩
    · simp only [List.forall_mem_cons, List.not_mem_nil, false_implies, implies_true, and_true]
      omega
    · simp only [ofDigits, List.foldl_cons, List.foldl_nil]
      omega

/-- A byte is read back. -/
theorem parseU8_showU8 (n : UInt8) : parseU8 (showU8 n) = some n := by
  obtain ⟨d, ds, hdigits, hshow, hsum⟩ := exists_digits n
  have hd := toNat_digit (hdigits d List.mem_cons_self)
  -- the first digit is no sign
  have hsign : (showU8 n).head? ≠ some '+' := by
    rw [hshow]
    intro h
    have hplus := congrArg Char.toNat (Option.some.inj h)
    rw [hd] at hplus
    have h43 : '+'.toNat = 43 := rfl
    omega
  have hne : (d :: ds).map (fun d ↦ Char.ofNat (48 + d)) ≠ [] := List.cons_ne_nil _ _
  rw [parseU8, if_neg hsign, hshow, if_neg hne,
    foldlM_pushDigit hdigits (by rw [hsum]; exact n.toNat_lt), hsum]
  exact congrArg some UInt8.ofNat_toNat

/-- The digits of a byte are no white space. -/
theorem not_isWhitespace_showU8 (n : UInt8) {c : Char} (hc : c ∈ showU8 n) :
    isWhitespace c = false := by
  have hall : ∀ d < 10, isWhitespace (Char.ofNat (48 + d)) = false := by decide
  obtain ⟨d, ds, hdigits, hshow, -⟩ := exists_digits n
  rw [hshow] at hc
  obtain ⟨e, he, rfl⟩ := List.mem_map.mp hc
  exact hall e (hdigits e he)

/-! ## Layouts -/

/-- The line with white space before and behind, a carriage return included. -/
def Dressed (line dressed : List Char) : Prop := ∃ front back : List Char,
  (∀ c ∈ front, isWhitespace c = true ∧ c ≠ '\n') ∧
  (∀ c ∈ back, isWhitespace c = true ∧ c ≠ '\n') ∧ dressed = front ++ line ++ back

/-- The armour of a share with its value broken into other lines, and every line dressed. -/
def Relaid (engine : Base64Engine) (share : ShamirShareExport) (text : List Char) : Prop :=
  ∃ chunks dressed, chunks.flatten = engine.encode share.value ∧
    List.Forall₂ Dressed (share.headerLines ++ chunks ++ [endLine]) dressed ∧
    text = dressed.flatMap fun line ↦ line ++ ['\n']

/-- A field that fits on a line: no white space at its ends, and no line feed. -/
def Clean (s : List Char) : Prop := trim s = s ∧ '\n' ∉ s

theorem Dressed.trim {line dressed : List Char} (h : Dressed line dressed) :
    trim (stripCr dressed) = Host.trim line := by
  obtain ⟨front, back, hfront, hback, rfl⟩ := h
  rw [trim_stripCr, trim_append_right fun c hc ↦ (hback c hc).1,
    trim_append_left fun c hc ↦ (hfront c hc).1]

theorem Dressed.notMem {line dressed : List Char} (h : Dressed line dressed) (hline : '\n' ∉ line) :
    '\n' ∉ dressed := by
  obtain ⟨front, back, hfront, hback, rfl⟩ := h
  rw [List.mem_append, List.mem_append, not_or, not_or]
  exact ⟨⟨fun hc ↦ (hfront _ hc).2 rfl, hline⟩, fun hc ↦ (hback _ hc).2 rfl⟩

/-- Trimmed, the lines of a text are the lines that were dressed. -/
theorem lines_dressed {ls dressed : List (List Char)} (h : List.Forall₂ Dressed ls dressed)
    (hls : ∀ l ∈ ls, '\n' ∉ l) :
    (lines (dressed.flatMap fun line ↦ line ++ ['\n'])).map trim = ls.map trim := by
  have hboth : (∀ d ∈ dressed, '\n' ∉ d) ∧ (dressed.map stripCr).map trim = ls.map trim := by
    induction h with
    | nil => exact ⟨fun d hd ↦ absurd hd List.not_mem_nil, rfl⟩
    | cons hl _ ih =>
      obtain ⟨hfeed, hmap⟩ := ih fun l hl ↦ hls l (List.mem_cons_of_mem _ hl)
      refine ⟨List.forall_mem_cons.mpr ⟨hl.notMem (hls _ List.mem_cons_self), hfeed⟩, ?_⟩
      rw [List.map_cons, List.map_cons, List.map_cons, hl.trim, hmap]
  rw [lines_flatMap hboth.1, hboth.2]

/-! ## Headers -/

/-- A header is trimmed to its key and what is read as its field. -/
theorem trim_headerLine (key : String) {s : List Char} (hkey : trim key.toList = key.toList)
    (hne : key.toList ≠ []) (hs : trim s = s) :
    ∃ rest, trim (headerLine key s) = key.toList ++ rest ∧ trim rest = s := by
  have hspace : ∀ c ∈ [' '], isWhitespace c = true := List.forall_mem_singleton.mpr rfl
  rcases s with _ | ⟨c, s⟩
  · refine ⟨[], ?_, rfl⟩
    rw [headerLine, trim_append_right hspace, hkey, List.append_nil]
  · refine ⟨' ' :: c :: s, trim_eq_self (fun d rest h ↦ ?_) fun d rest h ↦ ?_,
      (trim_append_left hspace _).trans hs⟩
    · obtain ⟨k, ks, hk⟩ := List.exists_cons_of_ne_nil hne
      rw [headerLine, hk] at h
      exact (List.cons.inj h).1 ▸ isWhitespace_head_trim (hkey.trans hk)
    · -- the last character of the line is the last one of the field
      obtain ⟨z, zs, hz⟩ := List.exists_cons_of_ne_nil
        (List.reverse_ne_nil_iff.mpr (List.cons_ne_nil c s))
      have hlast : isWhitespace z = false := isWhitespace_last_trim (hs.symm ▸ hz)
      rw [headerLine, List.reverse_append, List.reverse_cons, hz] at h
      rw [← (List.cons.inj h).1, hlast]

/-- Read a header whose field is a text. -/
theorem readLines_text (st : ArmourState) {rest : List Char} {field : String}
    (hfield : trim rest = field.toList) (ls : List (List Char)) :
    readLines st (("Profile:".toList ++ rest) :: ls) =
        readLines { st with profileName := some field } ls ∧
      readLines st (("Fingerprint:".toList ++ rest) :: ls) =
        readLines { st with fingerprint := some field } ls ∧
      readLines st (("Created:".toList ++ rest) :: ls) =
        readLines { st with created := some field } ls := by
  have hread : String.ofList (trim rest) = field := by rw [hfield, String.ofList_toList]
  rw [← hread]
  exact ⟨rfl, rfl, rfl⟩

/-- Read a header whose field is a number. -/
theorem readLines_number (st : ArmourState) {rest : List Char} {n : UInt8}
    (hn : parseU8 (trim rest) = some n) (ls : List (List Char)) :
    readLines st (("Threshold:".toList ++ rest) :: ls) =
        readLines { st with threshold := some n } ls ∧
      readLines st (("Total:".toList ++ rest) :: ls) = readLines { st with total := some n } ls ∧
      readLines st (("Index:".toList ++ rest) :: ls) = readLines { st with index := some n } ls := by
  have hread (message : String) : headerU8 message rest = .ok n := by
    rw [headerU8, hn]
    rfl
  have hstep (message : String) (f : UInt8 → ArmourState) :
      ((headerU8 message rest >>= fun n ↦ Except.ok (f n)) >>= fun st ↦ readLines st ls) =
        readLines (f n) ls := by
    rw [hread]
    rfl
  exact ⟨hstep "invalid Threshold" fun n ↦ { st with threshold := some n },
    hstep "invalid Total" fun n ↦ { st with total := some n },
    hstep "invalid Index" fun n ↦ { st with index := some n }⟩

/-! ## The value -/

/-- Letters and digits are no white space. -/
theorem not_isWhitespace_alphanum {c : Char} (h : c.isAlphanum = true) : isWhitespace c = false := by
  have hcode := Cipher.code_of_nameChar (c := c) (by rw [h]; rfl)
  exact ascii_all (p := fun c ↦ c.isAlphanum = true → isWhitespace c = false) (by decide)
    (Nat.lt_of_le_of_lt hcode.1 (by decide)) h

/-- A line of base64. -/
def InAlphabet (x : List Char) : Prop := ∀ c ∈ x, c.isAlphanum = true ∨ c ∈ ['+', '/', '=']

/-- What base64 has not. -/
theorem InAlphabet.notMem {x : List Char} (h : InAlphabet x) :
    ':' ∉ x ∧ '-' ∉ x ∧ '\n' ∉ x := by
  refine ⟨fun hc ↦ ?_, fun hc ↦ ?_, fun hc ↦ ?_⟩
  · exact absurd (h _ hc) (by decide)
  · exact absurd (h _ hc) (by decide)
  · exact absurd (h _ hc) (by decide)

theorem InAlphabet.dark {x : List Char} (h : InAlphabet x) {c : Char} (hc : c ∈ x) :
    isWhitespace c = false := by
  have hsigns : ∀ c ∈ ['+', '/', '='], isWhitespace c = false := by
    rw [List.forall_mem_cons, List.forall_mem_cons, List.forall_mem_singleton]
    exact ⟨rfl, rfl, rfl⟩
  rcases h c hc with halnum | hsign
  · exact not_isWhitespace_alphanum halnum
  · exact hsigns c hsign

/-- A line without a colon is no header. -/
theorem stripPrefix_eq_none {key : String} {line : List Char} (hkey : ':' ∈ key.toList)
    (hline : ':' ∉ line) : stripPrefix key line = none := by
  rw [stripPrefix, if_neg]
  intro h
  exact hline ((List.isPrefixOf_iff_prefix.mp h).subset hkey)

/-- Behind the empty line, a line of base64 is one of the value. -/
theorem readLine_body {st : ArmourState} {x : List Char} (hx : ':' ∉ x) (hst : st.inBody = true) :
    readLine st x = .ok { st with b64Lines := st.b64Lines ++ [x] } := by
  have hnone {key : String} (hkey : ':' ∈ key.toList) : stripPrefix key x = none :=
    stripPrefix_eq_none hkey hx
  have hversion : "Version:".toList.isPrefixOf x = false := by
    rw [Bool.eq_false_iff]
    exact fun h ↦ hx ((List.isPrefixOf_iff_prefix.mp h).subset (by decide))
  have hprofile : stripPrefix "Profile:" x = none := hnone (by decide)
  have hthreshold : stripPrefix "Threshold:" x = none := hnone (by decide)
  have htotal : stripPrefix "Total:" x = none := hnone (by decide)
  have hindex : stripPrefix "Index:" x = none := hnone (by decide)
  have hfingerprint : stripPrefix "Fingerprint:" x = none := hnone (by decide)
  have hcreated : stripPrefix "Created:" x = none := hnone (by decide)
  -- so it comes to the last branch, which collects it
  simp only [readLine, hprofile, hthreshold, htotal, hindex, hfingerprint, hcreated, hversion, hst,
    Bool.true_or, if_true, Bool.false_eq_true, if_false]

/-- The lines of the value are collected, whatever they are. -/
theorem readLines_body {chunks : List (List Char)} (h : ∀ x ∈ chunks, InAlphabet x)
    {st : ArmourState} (hst : st.inBody = true) (ls : List (List Char)) :
    ∃ st', readLines st (chunks ++ ls) = readLines st' ls ∧
      st' = { st with b64Lines := st'.b64Lines } ∧
      st'.b64Lines.flatten = st.b64Lines.flatten ++ chunks.flatten := by
  induction chunks generalizing st with
  | nil => exact ⟨st, rfl, rfl, (List.append_nil _).symm⟩
  | cons x chunks ih =>
    have hx := h x List.mem_cons_self
    have hrest : ∀ x ∈ chunks, InAlphabet x := fun y hy ↦ h y (List.mem_cons_of_mem x hy)
    have hbegin : x ≠ beginLine := fun heq ↦ hx.notMem.2.1 (heq ▸ by decide)
    have hend : x ≠ endLine := fun heq ↦ hx.notMem.2.1 (heq ▸ by decide)
    rw [List.cons_append, readLines, if_neg hbegin, if_neg hend]
    by_cases hnil : x = []
    · -- an empty line says again that the value has begun
      have hsame : { st with inBody := true } = st := by rw [← hst]
      rw [if_pos hnil, hsame, List.flatten_cons, hnil, List.nil_append]
      exact ih hrest hst
    · obtain ⟨st', hread, hst', hflat⟩ :=
        @ih hrest { st with b64Lines := st.b64Lines ++ [x] } hst
      refine ⟨st', ?_, hst', ?_⟩
      · rw [if_neg hnil, readLine_body hx.notMem.1 hst]
        exact hread
      · rw [hflat, List.flatten_append, List.flatten_singleton, List.append_assoc,
          List.flatten_cons]

/-! ## The round trip -/

namespace ShamirShareExport

/-- What is read of the header of a share. -/
def headerState (share : ShamirShareExport) : ArmourState where
  profileName := some share.profileName
  threshold := some share.threshold
  total := some share.total
  index := some share.index
  fingerprint := some share.fingerprint
  created := some share.createdAtRfc3339
  inBody := true
  b64Lines := []

/-- The texts of the header fit on lines. -/
structure FitsLines (share : ShamirShareExport) : Prop where
  profileName : Clean share.profileName.toList
  fingerprint : Clean share.fingerprint.toList
  created : Clean share.createdAtRfc3339.toList

variable {share : ShamirShareExport}

theorem trim_beginLine : trim beginLine = beginLine := by decide +kernel

theorem trim_versionLine : trim "Version: 1".toList = "Version: 1".toList := by decide +kernel

theorem trim_nil : trim [] = [] := rfl

/-- The header is read back, and behind it the value begins. -/
theorem readLines_header (h : share.FitsLines) (ls : List (List Char)) :
    readLines .start (share.headerLines.map trim ++ ls) = readLines share.headerState ls := by
  have hnumber (n : UInt8) : trim (showU8 n) = showU8 n :=
    trim_of_dark fun c hc ↦ not_isWhitespace_showU8 n hc
  have hparse {rest : List Char} {n : UInt8} (hrest : trim rest = showU8 n) :
      parseU8 (trim rest) = some n := by rw [hrest, parseU8_showU8]
  obtain ⟨profile, hprofile, hname⟩ :=
    trim_headerLine "Profile:" (by decide) (by decide) h.profileName.1
  obtain ⟨thr, hthr, hthreshold⟩ :=
    trim_headerLine "Threshold:" (by decide) (by decide) (hnumber share.threshold)
  obtain ⟨tot, htot, htotal⟩ :=
    trim_headerLine "Total:" (by decide) (by decide) (hnumber share.total)
  obtain ⟨idx, hidx, hindex⟩ :=
    trim_headerLine "Index:" (by decide) (by decide) (hnumber share.index)
  obtain ⟨fp, hfp, hfingerprint⟩ :=
    trim_headerLine "Fingerprint:" (by decide) (by decide) h.fingerprint.1
  obtain ⟨cr, hcr, hcreated⟩ :=
    trim_headerLine "Created:" (by decide) (by decide) h.created.1
  have hlines : share.headerLines.map trim ++ ls = beginLine :: "Version: 1".toList ::
      ("Profile:".toList ++ profile) :: ("Threshold:".toList ++ thr) :: ("Total:".toList ++ tot) ::
      ("Index:".toList ++ idx) :: ("Fingerprint:".toList ++ fp) :: ("Created:".toList ++ cr) ::
      [] :: ls := by
    rw [headerLines]
    simp only [List.map_cons, List.map_nil, List.cons_append, List.nil_append, hprofile, hthr, htot,
      hidx, hfp, hcr, trim_beginLine, trim_versionLine, trim_nil]
  have hversion (st : ArmourState) (ls : List (List Char)) :
      readLines st ("Version: 1".toList :: ls) = readLines st ls := rfl
  have hempty (st : ArmourState) : readLines st ([] :: ls) = readLines { st with inBody := true } ls :=
    rfl
  have hbegin (st : ArmourState) (ls : List (List Char)) :
      readLines st (beginLine :: ls) = readLines st ls := if_pos rfl
  rw [hlines, hbegin, hversion, (readLines_text _ hname _).1,
    (readLines_number _ (hparse hthreshold) _).1, (readLines_number _ (hparse htotal) _).2.1,
    (readLines_number _ (hparse hindex) _).2.2, (readLines_text _ hfingerprint _).2.1,
    (readLines_text _ hcreated _).2.2, hempty]
  rfl

/-- No line of the header is broken. -/
theorem newline_notMem_header (h : share.FitsLines) {l : List Char} (hl : l ∈ share.headerLines) :
    '\n' ∉ l := by
  have hline {key : String} {s : List Char} (hkey : '\n' ∉ key.toList) (hs : '\n' ∉ s) :
      '\n' ∉ headerLine key s := by
    rw [headerLine, List.mem_append, List.mem_cons, not_or, not_or]
    exact ⟨hkey, by decide, hs⟩
  have hnumber (n : UInt8) : '\n' ∉ showU8 n := fun hc ↦
    absurd (not_isWhitespace_showU8 n hc) (by decide)
  simp only [headerLines, List.mem_cons, List.not_mem_nil, or_false] at hl
  rcases hl with rfl | rfl | rfl | rfl | rfl | rfl | rfl | rfl | rfl
  · decide
  · decide
  · exact hline (by decide) h.profileName.2
  · exact hline (by decide) (hnumber _)
  · exact hline (by decide) (hnumber _)
  · exact hline (by decide) (hnumber _)
  · exact hline (by decide) h.fingerprint.2
  · exact hline (by decide) h.created.2
  · exact List.not_mem_nil

/-- Armour is read back in every layout. -/
theorem fromArmoured_relaid {engine : Base64Engine} (hengine : engine.Standard)
    (h : share.FitsLines) (now : String) {text : List Char} (ht : Relaid engine share text) :
    fromArmoured engine now text = .ok share := by
  obtain ⟨chunks, dressed, hvalue, hdressed, rfl⟩ := ht
  have hchunks : ∀ x ∈ chunks, InAlphabet x := fun x hx c hc ↦
    hengine.alphabet share.value c (hvalue ▸ List.mem_flatten_of_mem hx hc)
  have hfeed : ∀ l ∈ share.headerLines ++ chunks ++ [endLine], '\n' ∉ l := by
    intro l hl
    rw [List.mem_append, List.mem_append, List.mem_singleton] at hl
    rcases hl with (hl | hl) | rfl
    · exact newline_notMem_header h hl
    · exact (hchunks l hl).notMem.2.2
    · decide
  have htrim : chunks.map trim = chunks := by
    conv_rhs => rw [← List.map_id chunks]
    exact List.map_congr_left fun x hx ↦ trim_of_dark fun c hc ↦ (hchunks x hx).dark hc
  have hend : [endLine].map trim = [endLine] := by decide
  obtain ⟨st, hread, hst, hflat⟩ := @readLines_body _ hchunks share.headerState rfl [endLine]
  have hstop : readLines st [endLine] = .ok st := by
    rw [readLines, if_neg (by decide), if_pos rfl]
  have hb64 : trim st.b64Lines.flatten = engine.encode share.value := by
    rw [hflat, hvalue]
    exact trim_of_dark fun c hc ↦ InAlphabet.dark (hengine.alphabet share.value) hc
  rw [fromArmoured, lines_dressed hdressed hfeed, List.map_append, List.map_append, htrim, hend,
    List.append_assoc, readLines_header h, hread, hstop]
  change ofArmourState engine now st = _
  rw [ofArmourState, hb64, hengine.decode_encode, hst]
  rfl

/-- What is written is one of its own layouts. -/
theorem relaid_toArmoured (engine : Base64Engine) (share : ShamirShareExport) :
    Relaid engine share (share.toArmoured engine) := by
  have hdressed (ls : List (List Char)) : List.Forall₂ Dressed ls ls :=
    List.forall₂_same.mpr fun l _ ↦ ⟨[], [], fun c hc ↦ absurd hc List.not_mem_nil,
      fun c hc ↦ absurd hc List.not_mem_nil, by rw [List.nil_append, List.append_nil]⟩
  refine ⟨[engine.encode share.value], _, List.flatten_singleton, hdressed _, ?_⟩
  rw [toArmoured, List.append_assoc, List.singleton_append]

end ShamirShareExport

/-- A text without white space fits on a line. -/
theorem clean_of_dark {s : List Char} (h : ∀ c ∈ s, isWhitespace c = false) : Clean s :=
  ⟨trim_of_dark h, fun hc ↦ absurd (h _ hc) (by decide)⟩

/-- **Round trip of armoured shares.** Every share with a valid name of its profile, a fingerprint
of hexadecimal digits and colons and a time that fits on a line is read back from its armour, and
from every other layout of it: with the value broken at any places, and any white space at the ends
of the lines, such as indentation or carriage returns. -/
theorem armour_round_trip (engine : Base64Engine) (hengine : engine.Standard) (now : String)
    (share : ShamirShareExport)
    (hname : Cipher.validateProfileName share.profileName = .ok ())
    (hfingerprint : ∀ c ∈ share.fingerprint.toList, isAsciiHexdigit c = true ∨ c = ':')
    (hcreated : Clean share.createdAtRfc3339.toList) :
    ShamirShareExport.fromArmoured engine now (share.toArmoured engine) = .ok share ∧
      ∀ text, Relaid engine share text →
        ShamirShareExport.fromArmoured engine now text = .ok share := by
  have hfits : share.FitsLines := by
    refine ⟨clean_of_dark fun c hc ↦ ?_, clean_of_dark fun c hc ↦ ?_, hcreated⟩
    · -- a name has letters, digits and hyphens only
      simp only [Cipher.validateProfileName, ensure_bind_eq_ok, ensure_eq_ok] at hname
      have hchar := List.all_eq_true.mp hname.2.2 c hc
      rw [Bool.or_eq_true, beq_iff_eq] at hchar
      rcases hchar with halnum | rfl
      · exact not_isWhitespace_alphanum halnum
      · decide
    · rcases hfingerprint c hc with hdigit | rfl
      · exact not_isWhitespace_hexdigit hdigit
      · decide
  have hall (text : List Char) (ht : Relaid engine share text) :
      ShamirShareExport.fromArmoured engine now text = .ok share :=
    ShamirShareExport.fromArmoured_relaid hengine hfits now ht
  exact ⟨hall _ (ShamirShareExport.relaid_toArmoured engine share), hall⟩

/-! ## The library of the bench -/

/-- Base64 as it is specified. -/
def Base64Engine.bench : Base64Engine where
  encode := Base64.encode
  decode s := (Base64.decode s).elim (.error "Invalid input") .ok

theorem Base64Engine.bench_standard : Base64Engine.bench.Standard := by
  constructor
  · intro bs
    change (Base64.decode (Base64.encode bs)).elim _ _ = _
    rw [Base64.decode_encode]
    rfl
  · exact fun _ _ hc ↦ Base64.mem_encode hc

/-- A share of the bench. -/
def ShamirShareExport.bench : ShamirShareExport where
  profileName := "classic-256"
  threshold := 2
  total := 3
  index := 1
  value := [0, 255, 128, 7]
  fingerprint := "AB:cd"
  createdAtRfc3339 := "2026-01-02T03:04:05+00:00"

theorem bench_fingerprint {c : Char} (hc : c ∈ ShamirShareExport.bench.fingerprint.toList) :
    isAsciiHexdigit c = true ∨ c = ':' := by
  have hall : ShamirShareExport.bench.fingerprint.toList.all
      (fun c ↦ isAsciiHexdigit c || c == ':') = true := rfl
  have hchar := List.all_eq_true.mp hall c hc
  rwa [Bool.or_eq_true, beq_iff_eq] at hchar

/-- The share of the bench comes back from every layout of its armour. -/
theorem armour_round_trip_bench :
    ShamirShareExport.fromArmoured Base64Engine.bench ""
        (ShamirShareExport.bench.toArmoured Base64Engine.bench) = .ok ShamirShareExport.bench ∧
      ∀ text, Relaid Base64Engine.bench ShamirShareExport.bench text →
        ShamirShareExport.fromArmoured Base64Engine.bench "" text = .ok ShamirShareExport.bench :=
  armour_round_trip Base64Engine.bench Base64Engine.bench_standard "" ShamirShareExport.bench rfl
    (fun _ hc ↦ bench_fingerprint hc) ⟨by decide, by decide⟩

end Galdralag.Host
