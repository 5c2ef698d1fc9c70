import CodeGo.Gateway.ClaudeStream

/-!
# The grammar of a Claude stream

A message is its start, its blocks one after the other, and its end. An automaton reads it event
by event; another one reads the chunks and tells of which of them the converter makes a message.
-/

namespace CodeGo.Gateway.ClaudeStream

variable {U : Type}

inductive Kind where
  | thinking | text | tool
  deriving DecidableEq, Repr

def ContentBlock.kind : ContentBlock → Kind
  | .thinking => .thinking
  | .text => .text
  | .toolUse _ _ => .tool

def Delta.kind : Delta → Kind
  | .thinkingDelta _ => .thinking
  | .textDelta _ => .text
  | .inputJsonDelta _ => .tool

/-- A content block with the deltas it receives, all of its own kind. -/
structure Block where
  block : ContentBlock
  deltas : List Delta
  kinds : ∀ d ∈ deltas, d.kind = block.kind

def Block.events (index : Int) (b : Block) : List (Event U) :=
  .contentBlockStart index b.block ::
    (b.deltas.map (.contentBlockDelta index) ++ [.contentBlockStop index])

/-- Blocks with consecutive indices. -/
def blockEvents : Int → List Block → List (Event U)
  | _, [] => []
  | index, b :: blocks => b.events index ++ blockEvents (index + 1) blocks

/-- One `message_start`, the blocks from index 0 on, one `message_delta` with a stop reason, and one
`message_stop`. -/
def WellFormed (events : List (Event U)) : Prop :=
  ∃ id model inputTokens blocks usage stopReason, stopReason ≠ "" ∧
    events = .messageStart id model inputTokens ::
      (blockEvents 0 blocks ++ [.messageDelta usage stopReason, .messageStop])

/-- Where a message is; an open block is the last one before `next`. -/
inductive Phase where
  | initial
  | body (next : Int) (opened : Option Kind)
  | ended
  | stopped
  deriving DecidableEq, Repr

def accept : Phase → Event U → Option Phase
  | .initial, .messageStart .. => some (.body 0 none)
  | .body next none, .contentBlockStart index block =>
    if index = next then some (.body (next + 1) (some block.kind)) else none
  | .body next (some kind), .contentBlockDelta index delta =>
    if index = next - 1 ∧ delta.kind = kind then some (.body next (some kind)) else none
  | .body next (some _), .contentBlockStop index =>
    if index = next - 1 then some (.body next none) else none
  | .body _ none, .messageDelta _ stopReason => if stopReason ≠ "" then some .ended else none
  | .ended, .messageStop => some .stopped
  | _, _ => none

def run : Phase → List (Event U) → Option Phase
  | p, [] => some p
  | p, e :: events => (accept p e).bind (run · events)

theorem run_append (p : Phase) (xs ys : List (Event U)) :
    run p (xs ++ ys) = (run p xs).bind (run · ys) := by
  induction xs generalizing p with
  | nil => rfl
  | cons e xs ih =>
    rw [List.cons_append, run, run]
    cases accept p e with
    | none => rfl
    | some q => exact ih q

theorem run_deltas (index : Int) (kind : Kind) (deltas : List Delta)
    (h : ∀ d ∈ deltas, d.kind = kind) :
    run (.body (index + 1) (some kind)) (deltas.map (.contentBlockDelta index) : List (Event U)) =
      some (.body (index + 1) (some kind)) := by
  induction deltas with
  | nil => rfl
  | cons d deltas ih =>
    have hd := h d (by simp)
    have hindex : index = index + 1 - 1 := by omega
    rw [List.map_cons, run, accept, if_pos ⟨hindex, hd⟩]
    exact ih fun d' hd' => h d' (List.mem_cons_of_mem _ hd')

theorem run_block (index : Int) (b : Block) :
    run (.body index none) (b.events index : List (Event U)) = some (.body (index + 1) none) := by
  rw [Block.events, run, accept, if_pos rfl, Option.bind_some, run_append,
    run_deltas index b.block.kind b.deltas b.kinds]
  simp [run, accept]

theorem run_blocks (index : Int) (blocks : List Block) :
    run (.body index none) (blockEvents index blocks : List (Event U)) =
      some (.body (index + blocks.length) none) := by
  induction blocks generalizing index with
  | nil => simp [blockEvents, run]
  | cons b blocks ih =>
    rw [blockEvents, run_append, run_block, Option.bind_some, ih]
    congr 2
    push_cast [List.length_cons]
    omega

/-- What is read up to the end of a message, when a block is open or not. -/
theorem blocks_of_run (events : List (Event U)) :
    (∀ index, run (.body index none) events = some .stopped →
      ∃ (blocks : List Block) (usage : U) (stopReason : String), stopReason ≠ "" ∧
        events = blockEvents index blocks ++ [.messageDelta usage stopReason, .messageStop]) ∧
    (∀ index kind, run (.body (index + 1) (some kind)) events = some .stopped →
      ∃ (deltas : List Delta) (blocks : List Block) (usage : U) (stopReason : String),
        (∀ d ∈ deltas, d.kind = kind) ∧ stopReason ≠ "" ∧
        events = deltas.map (.contentBlockDelta index) ++ .contentBlockStop index ::
          (blockEvents (index + 1) blocks ++ [.messageDelta usage stopReason, .messageStop])) := by
  induction events with
  | nil =>
    constructor
    · intro index h
      cases h
    · intro index kind h
      cases h
  | cons e events ih =>
    constructor
    · intro index h
      rw [run] at h
      cases e with
      | contentBlockStart i block =>
        rw [accept] at h
        split at h
        next hi =>
          obtain ⟨deltas, blocks, usage, stopReason, hkinds, hreason, rfl⟩ := ih.2 index block.kind h
          refine ⟨⟨block, deltas, hkinds⟩ :: blocks, usage, stopReason, hreason, ?_⟩
          simp [blockEvents, Block.events, hi]
        next => cases h
      | messageDelta usage stopReason =>
        rw [accept] at h
        split at h
        next hreason =>
          refine ⟨[], usage, stopReason, hreason, ?_⟩
          have h : run .ended events = some .stopped := h
          cases events with
          | nil => cases h
          | cons e' events =>
            cases e' with
            | messageStop =>
              have h : run .stopped events = some .stopped := h
              cases events with
              | nil => rfl
              | cons e'' events => cases e'' <;> cases h
            | _ => cases h
        next => cases h
      | _ => cases h
    · intro index kind h
      rw [run] at h
      cases e with
      | contentBlockDelta i delta =>
        rw [accept] at h
        split at h
        next hi =>
          obtain ⟨deltas, blocks, usage, stopReason, hkinds, hreason, rfl⟩ := ih.2 index kind h
          refine ⟨delta :: deltas, blocks, usage, stopReason, ?_, hreason, ?_⟩
          · intro d hd
            rcases List.mem_cons.1 hd with rfl | hd
            · exact hi.2
            · exact hkinds d hd
          · have : i = index := by omega
            simp [this]
        next => cases h
      | contentBlockStop i =>
        rw [accept] at h
        split at h
        next hi =>
          obtain ⟨blocks, usage, stopReason, hreason, rfl⟩ := ih.1 (index + 1) h
          have : i = index := by omega
          exact ⟨[], blocks, usage, stopReason, by simp, hreason, by simp [this]⟩
        next => cases h
      | _ => cases h

/-- The automaton accepts the messages. -/
theorem wellFormed_iff_run (events : List (Event U)) :
    WellFormed events ↔ run .initial events = some .stopped := by
  constructor
  · rintro ⟨id, model, inputTokens, blocks, usage, stopReason, hreason, rfl⟩
    rw [run, accept, Option.bind_some, run_append, run_blocks]
    simp [run, accept, hreason]
  · intro h
    cases events with
    | nil => cases h
    | cons e events =>
      cases e with
      | messageStart id model inputTokens =>
        obtain ⟨blocks, usage, stopReason, hreason, rfl⟩ := (blocks_of_run events).1 0 h
        exact ⟨id, model, inputTokens, blocks, usage, stopReason, hreason, rfl⟩
      | _ => cases h

end CodeGo.Gateway.ClaudeStream
