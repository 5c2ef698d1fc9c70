import CodeGo.Platform.Cachex

/-!
# The lines of an event stream

The loop of `StreamScannerHandler` cuts each line of an upstream's stream and hands its payload on,
until the line that ends the stream. Lines are lists of bytes.
-/

namespace CodeGo.Gateway.StreamScanner

open Platform.Cachex (Bytes spaces trimSpace)

/-- `data:` -/
def dataField : Bytes := [100, 97, 116, 97, 58]

/-- `[DONE]` -/
def doneMarker : Bytes := [91, 68, 79, 78, 69, 93]

/-- `s[low:high]`. There is none out of range. -/
def slice (s : Bytes) (low high : Nat) : Option Bytes :=
  if low ≤ high ∧ high ≤ s.length then some ((s.take high).drop low) else none

inductive StreamEndReason where
  | done | eof
  deriving DecidableEq, Repr

/-- What the loop does with a line. -/
inductive Step where
  | skip
  | send (data : Bytes)
  | finish
  deriving DecidableEq, Repr

/-- Whether the line starts in neither of the two ways. -/
def unknown (data : Bytes) : Option Bool := do
  let five ← slice data 0 5
  if five = dataField then some false
  else do
    let six ← slice data 0 6
    some (decide (six ≠ doneMarker))

def scanLine (data : Bytes) : Option Step :=
  if data.length < 6 then some .skip
  else do
    let skipped ← unknown data
    if skipped then some .skip
    else do
      let rest ← slice data 5 data.length
      let data := trimSpace rest
      if data = [] then some .skip
      else if !doneMarker.isPrefixOf data then some (.send data)
      else some .finish

/-- The payloads handed on, and why the loop ended. -/
def scan : List Bytes → Option (List Bytes × StreamEndReason)
  | [] => some ([], .eof)
  | line :: rest => do
    match ← scanLine line with
    | .skip => scan rest
    | .finish => some ([], .done)
    | .send data =>
      let after ← scan rest
      some (data :: after.1, after.2)

/-- The payload of a line `data: payload`. -/
def payload (line : Bytes) : Option Bytes :=
  if dataField.isPrefixOf line then
    let text := trimSpace (line.drop dataField.length)
    if text = [] then none else some text
  else none

/-- The line is the marker by itself. -/
def isBareDone (line : Bytes) : Bool := doneMarker.isPrefixOf line

/-- The marker, as the payload of a line or by itself. -/
def isDone (line : Bytes) : Bool := (payload line).any doneMarker.isPrefixOf || isBareDone line

/-- What a stream carries. -/
def payloads (lines : List Bytes) : List Bytes :=
  (lines.takeWhile fun line => !isDone line).filterMap payload

/-- The marker of the stream, if it has one, is the payload of a line. -/
def EndsInPayload (lines : List Bytes) : Prop := (lines.find? isDone).all fun line => !isBareDone line

section Lines

variable {line : Bytes}

theorem bracket_not_mem_spaces : ∀ word ∈ spaces, (93 : UInt8) ∉ word := by
  decide

theorem trimSpace_nil : trimSpace [] = [] := by
  apply Lib.Strip.strip_eq_self
  constructor
  · intro word _ hne hprefix
    exact hne (List.prefix_nil.1 hprefix)
  · intro word _ hne hsuffix
    exact hne (List.suffix_nil.1 hsuffix)

theorem slice_all (h : 5 ≤ line.length) : slice line 5 line.length = some (line.drop 5) := by
  rw [slice, if_pos ⟨h, Nat.le_refl _⟩, List.take_length]

theorem take_eq_iff {α : Type} {w s : List α} : s.take w.length = w ↔ w <+: s := by
  constructor
  · intro h
    rw [← h]
    exact List.take_prefix _ _
  · rintro ⟨t, rfl⟩
    exact List.take_left

theorem unknown_eq (h : 6 ≤ line.length) :
    unknown line = some (!(dataField.isPrefixOf line || isBareDone line)) := by
  have hfive : slice line 0 5 = some (line.take 5) := by
    rw [slice, if_pos (by omega), List.drop_zero]
  have hsix : slice line 0 6 = some (line.take 6) := by
    rw [slice, if_pos (by omega), List.drop_zero]
  have hdata : line.take 5 = dataField ↔ dataField.isPrefixOf line = true := by
    rw [List.isPrefixOf_iff_prefix]
    exact @take_eq_iff _ dataField line
  have hdone : line.take 6 = doneMarker ↔ isBareDone line = true := by
    rw [isBareDone, List.isPrefixOf_iff_prefix]
    exact @take_eq_iff _ doneMarker line
  rw [unknown, hfive, hsix]
  show (if line.take 5 = dataField then _ else _) = _
  by_cases hfield : dataField.isPrefixOf line = true
  · rw [if_pos (hdata.2 hfield), hfield]
    rfl
  · rw [if_neg (fun h => hfield (hdata.1 h))]
    show some (decide (line.take 6 ≠ doneMarker)) = _
    rw [Bool.not_eq_true] at hfield
    rw [hfield, Bool.false_or, Option.some_inj, decide_not]
    congr 1
    rw [Bool.eq_iff_iff, decide_eq_true_iff, hdone]

theorem payload_of_short (h : line.length < 6) : payload line = none := by
  rw [payload]
  split
  · next hfield =>
    rw [List.isPrefixOf_iff_prefix] at hfield
    obtain ⟨rest, rfl⟩ := hfield
    have hrest : rest = [] := by
      rw [← List.length_eq_zero_iff]
      rw [List.length_append] at h
      have : dataField.length = 5 := rfl
      omega
    rw [hrest]
    exact if_pos trimSpace_nil
  · rfl

/-- The loop's step on a line that is not the marker by itself. -/
theorem scanLine_of_not_bare (h : isBareDone line = false) :
    scanLine line = some (match payload line with
      | none => .skip
      | some data => if doneMarker.isPrefixOf data then .finish else .send data) := by
  rw [scanLine]
  by_cases hshort : line.length < 6
  · rw [if_pos hshort, payload_of_short hshort]
  · rw [if_neg hshort, unknown_eq (by omega), h, Bool.or_false]
    by_cases hfield : dataField.isPrefixOf line = true
    · rw [hfield, payload, if_pos hfield]
      show (slice line 5 line.length >>= _) = _
      rw [slice_all (by omega)]
      show (if trimSpace (line.drop 5) = [] then _ else _) = _
      have hdrop : line.drop dataField.length = line.drop 5 := rfl
      rw [hdrop]
      by_cases hempty : trimSpace (line.drop 5) = []
      · simp only [if_pos hempty]
      · simp only [if_neg hempty]
        cases hdone : doneMarker.isPrefixOf (trimSpace (line.drop 5)) <;> simp
    · rw [Bool.not_eq_true] at hfield
      rw [hfield, payload, hfield]
      rfl

/-- The marker by itself is cut in two, and its last byte is handed on. -/
theorem scanLine_of_bare (h : isBareDone line = true) : ∃ data, scanLine line = some (.send data) := by
  rw [isBareDone, List.isPrefixOf_iff_prefix] at h
  obtain ⟨rest, rfl⟩ := h
  have hlength : (doneMarker ++ rest).length = 6 + rest.length := by
    rw [List.length_append]
    rfl
  have htrim : trimSpace ((doneMarker ++ rest).drop 5) = 93 :: Lib.Strip.stripRight spaces rest :=
    Lib.Strip.strip_cons_mark bracket_not_mem_spaces
  refine ⟨93 :: Lib.Strip.stripRight spaces rest, ?_⟩
  rw [scanLine, if_neg (by omega), unknown_eq (by omega)]
  show (slice (doneMarker ++ rest) 5 (doneMarker ++ rest).length >>= _) = _
  rw [slice_all (by omega)]
  show (if trimSpace ((doneMarker ++ rest).drop 5) = [] then _ else
    if !doneMarker.isPrefixOf (trimSpace ((doneMarker ++ rest).drop 5)) then _ else _) = _
  rw [htrim]
  rfl

end Lines

section Streams

variable {line : Bytes} {lines : List Bytes}

theorem payloads_cons_of_done (h : isDone line = true) : payloads (line :: lines) = [] := by
  rw [payloads, List.takeWhile_cons, h]
  rfl

theorem payloads_cons (h : isDone line = false) :
    payloads (line :: lines) = (payload line).toList ++ payloads lines := by
  rw [payloads, List.takeWhile_cons, h]
  show List.filterMap payload (line :: lines.takeWhile _) = _
  rw [List.filterMap_cons]
  cases payload line <;> rfl

theorem endsInPayload_cons :
    EndsInPayload (line :: lines) ↔
      if isDone line then isBareDone line = false else EndsInPayload lines := by
  rw [EndsInPayload, List.find?_cons]
  cases isDone line <;> simp [EndsInPayload]

/-- A line is handed on, skipped or ends the loop as its payload says, the marker by itself apart. -/
theorem isDone_of_not_bare (h : isBareDone line = false) :
    isDone line = (payload line).any doneMarker.isPrefixOf := by
  rw [isDone, h, Bool.or_false]

/-- The loop ends on every stream, with all of its payloads handed on first. More comes after them
unless the stream's marker is the payload of a line. -/
theorem scan_spec (lines : List Bytes) :
    ∃ more reason, scan lines = some (payloads lines ++ more, reason) ∧
      (more = [] ↔ EndsInPayload lines) := by
  induction lines with
  | nil => exact ⟨[], .eof, rfl, by simp [EndsInPayload]⟩
  | cons line lines ih =>
    obtain ⟨more, reason, hscan, hmore⟩ := ih
    rw [endsInPayload_cons]
    by_cases hbare : isBareDone line = true
    · have hdone : isDone line = true := by rw [isDone, hbare, Bool.or_true]
      obtain ⟨data, hline⟩ := scanLine_of_bare hbare
      refine ⟨data :: (payloads lines ++ more), reason, ?_, ?_⟩
      · rw [scan, hline, payloads_cons_of_done hdone]
        show (scan lines >>= _) = _
        rw [hscan]
        rfl
      · rw [if_pos hdone, hbare]
        simp
    · rw [Bool.not_eq_true] at hbare
      have hdone := isDone_of_not_bare hbare
      rw [scan, scanLine_of_not_bare hbare]
      cases hpayload : payload line with
      | none =>
        rw [hpayload] at hdone
        rw [payloads_cons hdone, hpayload, if_neg (by simp [hdone])]
        exact ⟨more, reason, hscan, hmore⟩
      | some data =>
        rw [hpayload] at hdone
        cases hmarker : doneMarker.isPrefixOf data with
        | true =>
          have hdone : isDone line = true := hdone.trans hmarker
          rw [payloads_cons_of_done hdone, if_pos hdone]
          exact ⟨[], .done, by simp [hmarker], by simp [hbare]⟩
        | false =>
          have hdone : isDone line = false := hdone.trans hmarker
          rw [payloads_cons hdone, hpayload, if_neg (by simp [hdone])]
          refine ⟨more, reason, ?_, hmore⟩
          simp [hmarker, hscan]

/-- No line is cut out of range, and exactly the payloads of a stream are handed on when and only
when its marker is not a line by itself. -/
theorem scan_payloads_iff (lines : List Bytes) :
    (scan lines).isSome ∧
      ((∃ reason, scan lines = some (payloads lines, reason)) ↔ EndsInPayload lines) := by
  obtain ⟨more, reason, hscan, hmore⟩ := scan_spec lines
  rw [hscan, ← hmore]
  refine ⟨rfl, ?_, ?_⟩
  · rintro ⟨reason', h⟩
    have heq := (Prod.mk.inj (Option.some.inj h)).1
    exact List.append_right_eq_self.1 heq
  · rintro rfl
    exact ⟨reason, by rw [List.append_nil]⟩

/-- After a marker by itself a bracket is handed on, and what follows the marker. -/
theorem bare_marker_goes_on :
    ¬ ∃ reason, scan [doneMarker, dataField ++ [32, 120]] =
      some (payloads [doneMarker, dataField ++ [32, 120]], reason) := by
  rintro ⟨reason, h⟩
  obtain ⟨more, reason', hscan, hmore⟩ := scan_spec [doneMarker, dataField ++ [32, 120]]
  have heq := (Prod.mk.inj (Option.some.inj (hscan.symm.trans h))).1
  have hends := hmore.1 (List.append_right_eq_self.1 heq)
  rw [endsInPayload_cons, if_pos (by rfl)] at hends
  exact absurd hends (by decide)

end Streams

end CodeGo.Gateway.StreamScanner
