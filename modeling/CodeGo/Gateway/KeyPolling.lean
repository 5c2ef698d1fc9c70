import CodeGo.Gateway.Channels
import CodeGo.Lib.Rotation

/-!
# Polling the keys of a channel

`GetNextEnabledChannelKey` in `channel_store.go`, with the memory cache or the database behind it:
in polling mode the enabled keys of a channel take turns.
-/

namespace CodeGo.Gateway.KeyPolling

open CodeGo.Lib CodeGo.Gateway.Channels

section Model

inductive KeyError where
  | noKeys
  | noEnabledKeys
  deriving DecidableEq, Repr

def KeyError.message : KeyError → String
  | .noKeys => "no keys available"
  | .noEnabledKeys => "no enabled keys"

/-- Where the channel of one id is kept: its object in the cache, if it is there, and its row. -/
structure Store where
  memoryCacheEnabled : Bool
  cached : Option Channel
  row : Channel

/-- The object that a call reads and writes. -/
def Store.runtimeChannel (s : Store) (channel : Channel) : Channel :=
  if s.memoryCacheEnabled then s.cached.getD channel else channel

def getStatus (info : ChannelInfo) (idx : Nat) : Int :=
  (info.multiKeyStatusList.lookup (idx : Int)).getD channelStatusEnabled

def isEnabled (info : ChannelInfo) (idx : Nat) : Bool := getStatus info idx = channelStatusEnabled

def enabledIdx (info : ChannelInfo) (keys : List String) : List Nat :=
  (List.range keys.length).filter (isEnabled info)

/-- An index that is out of range starts again. -/
def start (info : ChannelInfo) (keys : List String) : Nat :=
  if info.multiKeyPollingIndex < 0 ∨ keys.length ≤ info.multiKeyPollingIndex then 0
  else info.multiKeyPollingIndex.toNat

/-- The loop of the polling mode. -/
def poll (info : ChannelInfo) (keys : List String) : Option Nat :=
  ((List.range keys.length).map fun i => (start info keys + i) % keys.length).find? (isEnabled info)

/-- `channel` with the next index to poll. -/
def setPollingIndex (channel : Channel) (index : Nat) : Channel :=
  { channel with channelInfo := { channel.channelInfo with multiKeyPollingIndex := index } }

/-- The index is written to the object that was read and to the one that was passed, and to the row
when there is no memory cache. -/
def savePollingIndex (s : Store) (channel : Channel) (index : Nat) : Channel × Store :=
  if s.memoryCacheEnabled then
    (setPollingIndex channel index, { s with cached := s.cached.map (setPollingIndex · index) })
  else
    (setPollingIndex channel index,
      { s with row := { s.row with channelInfo := (setPollingIndex channel index).channelInfo } })

/-- What a call returns, the passed channel after it and the store after it. -/
structure Polled where
  result : Except KeyError (String × Nat)
  channel : Channel
  store : Store

-- `unmarshal` is how `encoding/json` splits a text into its elements, and `draw` the random number
variable (unmarshal : String → Option (List String))

def getNextEnabledChannelKey (draw : Nat) (s : Store) (channel : Channel) : Polled :=
  if ¬ channel.channelInfo.isMultiKey then ⟨.ok (channel.key, 0), channel, s⟩
  else
    let info := (s.runtimeChannel channel).channelInfo
    let keys := (s.runtimeChannel channel).getKeys unmarshal
    if keys = [] then ⟨.error .noKeys, channel, s⟩
    else match enabledIdx info keys with
    | [] => ⟨.error .noEnabledKeys, channel, s⟩
    | first :: others => match info.multiKeyMode with
      | .random =>
        let selectedIdx := (first :: others).getD (draw % (others.length + 1)) first
        ⟨.ok (keys.getD selectedIdx "", selectedIdx), channel, s⟩
      | .polling => match poll info keys with
        | some idx =>
          let saved := savePollingIndex s channel ((idx + 1) % keys.length)
          ⟨.ok (keys.getD idx "", idx), saved.1, saved.2⟩
        | none => ⟨.ok (keys.getD first "", first), channel, s⟩
      | .unset => ⟨.ok (keys.getD first "", first), channel, s⟩

/-- What the calls on the passed channels return, one after another. -/
def results (s : Store) : List Channel → List (Except KeyError (String × Nat))
  | [] => []
  | channel :: channels =>
    let x := getNextEnabledChannelKey unmarshal 0 s channel
    x.result :: results x.store channels

/-- Each call works on what the call before left: the same object is passed again, or any object
while the channel is in the cache, or the row as it was loaded. -/
def Consecutive (s : Store) (runtime : Channel) : List Channel → Prop
  | [] => True
  | channel :: channels => channel.channelInfo.isMultiKey = true ∧
      s.runtimeChannel channel = runtime ∧
      let x := getNextEnabledChannelKey unmarshal 0 s channel
      Consecutive x.store (x.store.runtimeChannel x.channel) channels

end Model

section Turns

variable {unmarshal : String → Option (List String)} {s : Store} {channel runtime : Channel}
  {info : ChannelInfo} {keys : List String}

theorem poll_eq (info : ChannelInfo) (keys : List String) :
    poll info keys = Rotation.next (isEnabled info) keys.length (start info keys) := by
  have hrotate : (List.range keys.length).map (fun i => (start info keys + i) % keys.length) =
      (List.range keys.length).rotate (start info keys) := by
    apply List.ext_getElem
    · simp
    · intro i hi hi'
      rw [List.getElem_map, List.getElem_rotate, List.getElem_range, List.getElem_range,
        List.length_range, Nat.add_comm]
  rw [poll, hrotate, Rotation.next]

theorem start_setPollingIndex {index : Nat} (h : index < keys.length) :
    start (setPollingIndex channel index).channelInfo keys = index := by
  have hrange : ¬ ((index : Int) < 0 ∨ (keys.length : Int) ≤ index) := by omega
  exact (if_neg hrange).trans (Int.toNat_natCast index)

/-- The next call on the same object reads the index that was saved. -/
theorem runtimeChannel_saved (s : Store) (channel : Channel) (index : Nat) :
    (savePollingIndex s channel index).2.runtimeChannel (savePollingIndex s channel index).1 =
      setPollingIndex (s.runtimeChannel channel) index := by
  unfold savePollingIndex Store.runtimeChannel
  cases hcache : s.memoryCacheEnabled with
  | false => rfl
  | true => cases s.cached <;> simp

/-- A call in polling mode takes the turn of the next enabled key. -/
theorem getNextEnabledChannelKey_polling (draw : Nat) (s : Store)
    (hmulti : channel.channelInfo.isMultiKey = true) (hruntime : s.runtimeChannel channel = runtime)
    (hmode : runtime.channelInfo.multiKeyMode = .polling)
    (hsome : enabledIdx runtime.channelInfo (runtime.getKeys unmarshal) ≠ []) :
    ∃ idx, Rotation.next (isEnabled runtime.channelInfo) (runtime.getKeys unmarshal).length
          (start runtime.channelInfo (runtime.getKeys unmarshal)) = some idx ∧
      (getNextEnabledChannelKey unmarshal draw s channel).result =
        .ok ((runtime.getKeys unmarshal).getD idx "", idx) ∧
      (getNextEnabledChannelKey unmarshal draw s channel).store.runtimeChannel
          (getNextEnabledChannelKey unmarshal draw s channel).channel =
        setPollingIndex runtime ((idx + 1) % (runtime.getKeys unmarshal).length) := by
  have hkeys : runtime.getKeys unmarshal ≠ [] := by
    intro hnil
    rw [hnil] at hsome
    exact hsome rfl
  obtain ⟨first, others, henabled⟩ := List.exists_cons_of_ne_nil hsome
  have hfirst : first ∈ enabledIdx runtime.channelInfo (runtime.getKeys unmarshal) := by
    rw [henabled]
    exact List.mem_cons_self
  obtain ⟨hlt, hon⟩ := List.mem_filter.1 hfirst
  have hnext : (Rotation.next (isEnabled runtime.channelInfo) (runtime.getKeys unmarshal).length
      (start runtime.channelInfo (runtime.getKeys unmarshal))).isSome :=
    Rotation.next_isSome (List.mem_range.1 hlt) hon
  obtain ⟨idx, hidx⟩ := Option.isSome_iff_exists.1 hnext
  refine ⟨idx, hidx, ?_⟩
  have hpoll : poll runtime.channelInfo (runtime.getKeys unmarshal) = some idx := by
    rw [poll_eq, hidx]
  have hcall : getNextEnabledChannelKey unmarshal draw s channel =
      ⟨.ok ((runtime.getKeys unmarshal).getD idx "", idx),
        (savePollingIndex s channel ((idx + 1) % (runtime.getKeys unmarshal).length)).1,
        (savePollingIndex s channel ((idx + 1) % (runtime.getKeys unmarshal).length)).2⟩ := by
    unfold getNextEnabledChannelKey
    rw [if_neg (not_not_intro hmulti)]
    simp only [hruntime, if_neg hkeys, henabled, hmode, hpoll]
  rw [hcall]
  refine ⟨rfl, ?_⟩
  rw [runtimeChannel_saved, hruntime]

/-- The turns of the calls, one after another. -/
theorem results_eq {channels : List Channel} (h : Consecutive unmarshal s runtime channels)
    (hmode : runtime.channelInfo.multiKeyMode = .polling)
    (hsome : enabledIdx runtime.channelInfo (runtime.getKeys unmarshal) ≠ [])
    {first : Nat} (hfirst : start runtime.channelInfo (runtime.getKeys unmarshal) = first) :
    results unmarshal s channels = (Rotation.turns (isEnabled runtime.channelInfo)
      (runtime.getKeys unmarshal).length first channels.length).map fun idx =>
        .ok ((runtime.getKeys unmarshal).getD idx "", idx) := by
  induction channels generalizing s runtime first with
  | nil => rfl
  | cons channel channels ih =>
    obtain ⟨hmulti, hruntime, hrest⟩ := h
    obtain ⟨idx, hnext, hresult, hafter⟩ :=
      getNextEnabledChannelKey_polling 0 s hmulti hruntime hmode hsome
    replace hrest : Consecutive unmarshal (getNextEnabledChannelKey unmarshal 0 s channel).store
        (setPollingIndex runtime ((idx + 1) % (runtime.getKeys unmarshal).length)) channels := by
      rw [← hafter]
      exact hrest
    have hlt := Nat.mod_lt (idx + 1) (Nat.zero_lt_of_lt (Rotation.next_eq_some hnext).1)
    -- the statuses and the keys are those of before, and the index is the next one
    have hothers := ih hrest hmode hsome (start_setPollingIndex hlt)
    rw [hfirst] at hnext
    rw [results, List.length_cons, Rotation.turns, hnext]
    dsimp only
    rw [List.map_cons, hresult, hothers]
    rfl

/-- A call in polling mode returns an enabled key at its own index if there is one, and as many
calls as there are enabled keys return each of them once. -/
theorem polling_rotates (unmarshal : String → Option (List String)) (s : Store) (runtime : Channel)
    (hmode : runtime.channelInfo.multiKeyMode = .polling) (channels : List Channel)
    (h : Consecutive unmarshal s runtime channels) :
    (∀ draw channel, channel.channelInfo.isMultiKey = true → s.runtimeChannel channel = runtime →
      enabledIdx runtime.channelInfo (runtime.getKeys unmarshal) ≠ [] →
      ∃ key idx, (getNextEnabledChannelKey unmarshal draw s channel).result = .ok (key, idx) ∧
        (runtime.getKeys unmarshal)[idx]? = some key ∧
        getStatus runtime.channelInfo idx = channelStatusEnabled) ∧
      (channels.length = (enabledIdx runtime.channelInfo (runtime.getKeys unmarshal)).length →
        ∃ picks : List Nat, picks.Perm (enabledIdx runtime.channelInfo (runtime.getKeys unmarshal)) ∧
          results unmarshal s channels =
            picks.map fun idx => .ok ((runtime.getKeys unmarshal).getD idx "", idx)) := by
  constructor
  · intro draw channel hmulti hruntime hsome
    obtain ⟨idx, hnext, hresult, -⟩ :=
      getNextEnabledChannelKey_polling draw s hmulti hruntime hmode hsome
    obtain ⟨hlt, hon⟩ := Rotation.next_eq_some hnext
    refine ⟨_, idx, hresult, ?_, by simpa [isEnabled] using hon⟩
    rw [List.getD_eq_getElem?_getD, List.getElem?_eq_getElem hlt, Option.getD_some]
  · intro hlength
    by_cases hsome : enabledIdx runtime.channelInfo (runtime.getKeys unmarshal) = []
    · rw [hsome, List.length_nil, List.length_eq_zero_iff] at hlength
      rw [hlength, hsome]
      exact ⟨[], .nil, rfl⟩
    · refine ⟨_, ?_, results_eq h hmode hsome rfl⟩
      rw [hlength]
      exact Rotation.turns_perm _

/-- Four keys, the third one disabled, and an index from before two more keys were removed. -/
def fourKeys : Channel where
  id := 7
  key := "a\nb\nc\nd"
  channelInfo := {
    isMultiKey := true
    multiKeySize := 4
    multiKeyStatusList := Finmap.singleton 2 channelStatusManuallyDisabled
    multiKeyPollingIndex := 5
    multiKeyMode := .polling }

theorem polling_rotates_sample :
    results (fun _ => none) ⟨true, some fourKeys, fourKeys⟩ [fourKeys, fourKeys, fourKeys] =
        [.ok ("a", 0), .ok ("b", 1), .ok ("d", 3)] ∧
      ∃ picks : List Nat, picks.Perm (enabledIdx fourKeys.channelInfo (fourKeys.getKeys fun _ => none)) ∧
        results (fun _ => none) ⟨true, some fourKeys, fourKeys⟩ [fourKeys, fourKeys, fourKeys] =
          picks.map fun idx => .ok ((fourKeys.getKeys fun _ => none).getD idx "", idx) := by
  refine ⟨by decide +kernel, (polling_rotates (fun _ => none) ⟨true, some fourKeys, fourKeys⟩ fourKeys
    rfl [fourKeys, fourKeys, fourKeys] ⟨rfl, rfl, rfl, by decide +kernel, rfl,
      by decide +kernel, trivial⟩).2 ?_⟩
  decide +kernel

end Turns

end CodeGo.Gateway.KeyPolling
