import CodeGo.Gateway.Channels

/-!
# Managing the keys of a channel

`channel_multi_key.go`: keys of a multi-key channel are disabled, enabled and deleted. A deletion
puts the remaining keys together into one text again and moves three maps along, and the save sizes
the maps by the text. Over the code stands the list of the keys, each with its state.
-/

namespace CodeGo.Gateway.MultiKeys

open CodeGo.Lib.Trim
open Channels (channelStatusEnabled channelStatusManuallyDisabled channelStatusAutoDisabled
  channelKeysFromRaw)

section Model

structure ChannelInfo extends Channels.ChannelInfo where
  multiKeyDisabledTime : Finmap fun _ : Int => Int := ∅
  multiKeyDisabledReason : Finmap fun _ : Int => String := ∅
  deriving DecidableEq

/-- A row of the table, less its id. -/
structure Channel where
  key : String
  channelInfo : ChannelInfo
  deriving DecidableEq

inductive Error where
  | channelNotFound
  | notMultiKeyChannel
  | missingKeyIndex
  | keyIndexOutOfRange
  | cannotDeleteLastKey
  | noKeysToDisable
  | noAutoDisabledKeys
  deriving DecidableEq, Repr

def Error.message : Error → String
  | .channelNotFound => "渠道不存在"
  | .notMultiKeyChannel => "该渠道不是多密钥模式"
  | .missingKeyIndex => "未指定要操作的密钥索引"
  | .keyIndexOutOfRange => "密钥索引超出范围"
  | .cannotDeleteLastKey => "不能删除最后一个密钥"
  | .noKeysToDisable => "没有可禁用的密钥"
  | .noAutoDisabledKeys => "没有需要删除的自动禁用密钥"

structure MultiKeyOperationResult where
  message : String
  data : Option Nat := none
  deriving DecidableEq, Repr

-- `unmarshal` is how `encoding/json` splits a text into its elements, when it is a JSON array
variable (unmarshal : String → Option (List String))

/-- The keys of a channel that was read from the database. -/
def Channel.getKeys (c : Channel) : List String := channelKeysFromRaw unmarshal c.key

def readMultiKeyStatus (channel : Channel) (index : Int) : Int :=
  let status : Option Int := channel.channelInfo.multiKeyStatusList.lookup index
  status.getD channelStatusEnabled

def requireValidMultiKeyIndex (channel : Channel) (keyIndex : Option Int) : Except Error Int :=
  match keyIndex with
  | none => .error .missingKeyIndex
  | some index =>
    if index < 0 ∨ channel.channelInfo.multiKeySize ≤ index then .error .keyIndexOutOfRange
    else .ok index

/-- What an operation reports and the channel that it saves. -/
abbrev Outcome := Except Error (MultiKeyOperationResult × Channel)

def disableMultiKey (channel : Channel) (keyIndex : Option Int) : Outcome := do
  let index ← requireValidMultiKeyIndex channel keyIndex
  return (⟨"密钥已禁用", none⟩, { channel with channelInfo := { channel.channelInfo with
    multiKeyStatusList :=
      channel.channelInfo.multiKeyStatusList.insert index channelStatusManuallyDisabled } })

def enableMultiKey (channel : Channel) (keyIndex : Option Int) : Outcome := do
  let index ← requireValidMultiKeyIndex channel keyIndex
  return (⟨"密钥已启用", none⟩, { channel with channelInfo := { channel.channelInfo with
    multiKeyStatusList := channel.channelInfo.multiKeyStatusList.erase index
    multiKeyDisabledTime := channel.channelInfo.multiKeyDisabledTime.erase index
    multiKeyDisabledReason := channel.channelInfo.multiKeyDisabledReason.erase index } })

def enableAllMultiKeys (channel : Channel) : Outcome :=
  .ok (⟨s!"已启用 {channel.channelInfo.multiKeyStatusList.keys.card} 个密钥", none⟩,
    { channel with channelInfo := { channel.channelInfo with
      multiKeyStatusList := ∅
      multiKeyDisabledTime := ∅
      multiKeyDisabledReason := ∅ } })

/-- One round of the loop: the statuses and how many keys were disabled. -/
def disableIfEnabled (disabled : (Finmap fun _ : Int => Int) × Nat) (index : Nat) :
    (Finmap fun _ : Int => Int) × Nat :=
  let status : Option Int := disabled.1.lookup (index : Int)
  if status.getD channelStatusEnabled ≠ channelStatusEnabled then disabled
  else (disabled.1.insert index channelStatusManuallyDisabled, disabled.2 + 1)

def disableAllMultiKeys (channel : Channel) : Outcome :=
  let disabled := (List.range channel.channelInfo.multiKeySize.toNat).foldl disableIfEnabled
    (channel.channelInfo.multiKeyStatusList, 0)
  if disabled.2 = 0 then .error .noKeysToDisable
  else .ok (⟨s!"已禁用 {disabled.2} 个密钥", none⟩,
    { channel with channelInfo :=
      { channel.channelInfo with multiKeyStatusList := disabled.1 } })

/-- What the loop over the keys has kept so far. -/
structure Remaining where
  remainingKeys : List String := []
  newStatusList : Finmap fun _ : Int => Int := ∅
  newDisabledTime : Finmap fun _ : Int => Int := ∅
  newDisabledReason : Finmap fun _ : Int => String := ∅

/-- `if value, ok := …; ok { m[index] = value }`. -/
def insertSome {β : Type} (m : Finmap fun _ : Int => β) (index : Int) (value : Option β) :
    Finmap fun _ : Int => β :=
  match value with
  | some v => m.insert index v
  | none => m

/-- The number of keys that were kept is the index of the next one. -/
def Remaining.keep (channel : Channel) (kept : Remaining) (key : String) (currentIndex : Int) :
    Remaining :=
  let nextIndex : Int := kept.remainingKeys.length
  let status := readMultiKeyStatus channel currentIndex
  { remainingKeys := kept.remainingKeys ++ [key]
    newStatusList :=
      if status ≠ channelStatusEnabled then kept.newStatusList.insert nextIndex status
      else kept.newStatusList
    newDisabledTime := insertSome kept.newDisabledTime nextIndex
      (channel.channelInfo.multiKeyDisabledTime.lookup currentIndex)
    newDisabledReason := insertSome kept.newDisabledReason nextIndex
      (channel.channelInfo.multiKeyDisabledReason.lookup currentIndex) }

/-- The loop over the keys of both deletions. -/
def Remaining.of (channel : Channel) (deleted : Int → Bool) : Remaining :=
  (channel.getKeys unmarshal).zipIdx.foldl (fun kept key =>
    if deleted key.2 then kept else kept.keep channel key.1 key.2) {}

def Remaining.channel (kept : Remaining) (channel : Channel) : Channel :=
  { channel with
    key := String.intercalate "\n" kept.remainingKeys
    channelInfo := { channel.channelInfo with
      multiKeySize := kept.remainingKeys.length
      multiKeyStatusList := kept.newStatusList
      multiKeyDisabledTime := kept.newDisabledTime
      multiKeyDisabledReason := kept.newDisabledReason } }

def deleteMultiKey (channel : Channel) (keyIndex : Option Int) : Outcome := do
  let index ← requireValidMultiKeyIndex channel keyIndex
  if (channel.getKeys unmarshal).length = 1 then throw .cannotDeleteLastKey
  return (⟨"密钥已删除", none⟩, (Remaining.of unmarshal channel (· = index)).channel channel)

def isAutoDisabled (channel : Channel) (index : Int) : Bool :=
  readMultiKeyStatus channel index = channelStatusAutoDisabled

def deleteAutoDisabledMultiKeys (channel : Channel) : Outcome :=
  let deletedCount :=
    (List.range (channel.getKeys unmarshal).length).countP fun index : Nat =>
      isAutoDisabled channel index
  if deletedCount = 0 then .error .noAutoDisabledKeys
  else .ok (⟨s!"已删除 {deletedCount} 个自动禁用的密钥", some deletedCount⟩,
    (Remaining.of unmarshal channel (isAutoDisabled channel)).channel channel)

abbrev Store := Int → Option Channel

/-- The number of keys in the text, and the key statuses that this number leaves. -/
def Channel.sized (channel : Channel) (keyStr : String) : Channel :=
  let sized := Channels.Channel.sized unmarshal
    { id := 0, channelInfo := channel.channelInfo.toChannelInfo } keyStr
  { channel with channelInfo :=
    { channel.channelInfo with toChannelInfo := sized.channelInfo } }

def prepareChannelForSave (store : Store) (channelID : Int) (channel : Channel) : Channel :=
  if !channel.channelInfo.isMultiKey then channel
  else
    let keyStr :=
      if channel.key = "" then ((store channelID).map (·.key)).getD "" else channel.key
    channel.sized unmarshal keyStr

/-- `Updates` with a struct: the columns whose values are not zero. -/
def updateColumns (channel row : Channel) : Channel :=
  { row with
    key := if channel.key = "" then row.key else channel.key
    channelInfo := if channel.channelInfo = {} then row.channelInfo else channel.channelInfo }

def updateChannel (store : Store) (channelID : Int) (channel : Channel) : Store :=
  let channel := prepareChannelForSave unmarshal store channelID channel
  Function.update store channelID ((store channelID).map (updateColumns channel))

inductive Op where
  | disableMultiKey (keyIndex : Option Int)
  | enableMultiKey (keyIndex : Option Int)
  | enableAllMultiKeys
  | disableAllMultiKeys
  | deleteMultiKey (keyIndex : Option Int)
  | deleteAutoDisabledMultiKeys

def Op.run (channel : Channel) : Op → Outcome
  | .disableMultiKey keyIndex => MultiKeys.disableMultiKey channel keyIndex
  | .enableMultiKey keyIndex => MultiKeys.enableMultiKey channel keyIndex
  | .enableAllMultiKeys => MultiKeys.enableAllMultiKeys channel
  | .disableAllMultiKeys => MultiKeys.disableAllMultiKeys channel
  | .deleteMultiKey keyIndex => MultiKeys.deleteMultiKey unmarshal channel keyIndex
  | .deleteAutoDisabledMultiKeys => MultiKeys.deleteAutoDisabledMultiKeys unmarshal channel

structure Call where
  channelID : Int
  op : Op

def getManagedMultiKeyChannel (store : Store) (channelID : Int) : Except Error Channel :=
  match store channelID with
  | none => .error .channelNotFound
  | some channel => if !channel.channelInfo.isMultiKey then .error .notMultiKeyChannel else .ok channel

/-- A call: what it reports, and the store after it. -/
def perform (store : Store) (call : Call) : Except Error MultiKeyOperationResult × Store :=
  match (getManagedMultiKeyChannel store call.channelID).bind (call.op.run unmarshal) with
  | .ok (result, channel) => (.ok result, updateChannel unmarshal store call.channelID channel)
  | .error e => (.error e, store)

end Model

section Spec

/-- A key and what is known of it. -/
structure KeyState where
  key : String
  status : Int
  disabledTime : Option Int
  reason : Option String
  deriving DecidableEq

variable (unmarshal : String → Option (List String))

def Channel.stateAt (c : Channel) (index : Nat) (key : String) : KeyState where
  key := key
  status := readMultiKeyStatus c index
  disabledTime := c.channelInfo.multiKeyDisabledTime.lookup (index : Int)
  reason := c.channelInfo.multiKeyDisabledReason.lookup (index : Int)

/-- The keys of a channel with their states. -/
def Channel.states (c : Channel) : List KeyState := (c.getKeys unmarshal).mapIdx c.stateAt

def KeyState.disable (s : KeyState) : KeyState := { s with status := channelStatusManuallyDisabled }

def KeyState.enable (s : KeyState) : KeyState :=
  { s with status := channelStatusEnabled, disabledTime := none, reason := none }

/-- What an operation does to the keys and their states; `size` is the recorded number of keys. -/
def Op.apply (size : Int) (states : List KeyState) : Op → List KeyState
  | .disableMultiKey keyIndex => match keyIndex with
    | some index => states.modify index.toNat KeyState.disable
    | none => states
  | .enableMultiKey keyIndex => match keyIndex with
    | some index => states.modify index.toNat KeyState.enable
    | none => states
  | .enableAllMultiKeys => states.map KeyState.enable
  | .disableAllMultiKeys => states.mapIdx fun index s =>
    if index < size ∧ s.status = channelStatusEnabled then s.disable else s
  | .deleteMultiKey keyIndex => match keyIndex with
    | some index => states.eraseIdx index.toNat
    | none => states
  | .deleteAutoDisabledMultiKeys => states.filter (·.status ≠ channelStatusAutoDisabled)

/-- A channel after a call that reported a result. -/
structure KeptBy (op : Op) (c : Channel) (result : MultiKeyOperationResult) (c' : Channel) :
    Prop where
  states : c'.states unmarshal = op.apply c.channelInfo.multiKeySize (c.states unmarshal)
  reported : ∀ n, result.data = some n →
    (c'.states unmarshal).length + n = (c.states unmarshal).length
  size : c'.channelInfo.multiKeySize = (c'.getKeys unmarshal).length
  some_key : c.getKeys unmarshal ≠ [] → c'.getKeys unmarshal ≠ []

/-- A call that succeeds keeps the keys and their states together. -/
def Kept (store : Store) (call : Call) : Prop :=
  ∀ c result, getManagedMultiKeyChannel store call.channelID = .ok c →
    (perform unmarshal store call).1 = .ok result →
    ∃ c', (perform unmarshal store call).2 call.channelID = some c' ∧
      KeptBy unmarshal call.op c result c'

/-- Keys that come back from the text that they are put together into. -/
def Resplits (keys : List String) : Prop :=
  keys = [] ∨
    let text := trimSpace (String.intercalate "\n" keys)
    if "[".toList.isPrefixOf text.toList = true ∧ (unmarshal text).isSome = true then
      unmarshal text = some keys
    else (∀ key ∈ keys, '\n' ∉ key.toList) ∧ keys.head? ≠ some "" ∧ keys.getLast? ≠ some ""

/-- What a deletion leaves comes back from its text, and some key is left. -/
def Careful (store : Store) (call : Call) : Prop :=
  ∀ c, getManagedMultiKeyChannel store call.channelID = .ok c →
    match call.op with
    | .deleteMultiKey (some index) =>
      0 ≤ index → index < c.channelInfo.multiKeySize → (c.getKeys unmarshal).length ≠ 1 →
        Resplits unmarshal ((c.getKeys unmarshal).eraseIdx index.toNat)
    | .deleteAutoDisabledMultiKeys =>
      let remaining := (c.states unmarshal).filter (·.status ≠ channelStatusAutoDisabled)
      remaining.length ≠ (c.states unmarshal).length →
        remaining ≠ [] ∧ Resplits unmarshal (remaining.map (·.key))
    | _ => True

/-- What holds of every call of a run and of the store in which it is made. -/
def Along (P : Store → Call → Prop) : Store → List Call → Prop
  | _, [] => True
  | store, call :: calls => P store call ∧ Along P (perform unmarshal store call).2 calls

end Spec

section Texts

variable {keys : List String} {key : String}

/-- The lines of keys without newlines are the keys. -/
theorem split_intercalate (hne : keys ≠ []) (hkeys : ∀ key ∈ keys, '\n' ∉ key.toList) :
    Channels.split (String.intercalate "\n" keys) '\n' = keys := by
  have hsplit : (['\n'].intercalate (keys.map String.toList)).splitOn '\n' =
      keys.map String.toList :=
    List.splitOn_intercalate '\n' (by simpa using hkeys) (by simpa using hne)
  rw [Channels.split, String.toList_intercalate]
  show (List.splitOn '\n' (['\n'].intercalate (keys.map String.toList))).map String.ofList = keys
  rw [hsplit, List.map_map]
  simp [Function.comp_def]

theorem not_mem_of_mem_split {s : String} (h : key ∈ Channels.split s '\n') :
    '\n' ∉ key.toList := by
  obtain ⟨line, hline, rfl⟩ := List.mem_map.1 h
  rw [String.toList_ofList]
  exact not_mem_of_mem_splitOn hline

theorem intercalate_split (s : String) :
    String.intercalate "\n" (Channels.split s '\n') = s := by
  apply String.toList_inj.1
  rw [String.toList_intercalate, Channels.split, List.map_map]
  have hlists : String.toList ∘ String.ofList = id := by
    funext cs
    exact String.toList_ofList
  rw [hlists, List.map_id]
  exact List.intercalate_splitOn '\n'

theorem head_intercalate (h : keys.head? = some key) (hkey : key ≠ "") :
    (String.intercalate "\n" keys).toList.head? = key.toList.head? := by
  obtain ⟨rest, rfl⟩ := List.head?_eq_some_iff.1 h
  obtain ⟨c, cs, hcs⟩ := List.exists_cons_of_ne_nil (show key.toList ≠ [] by simpa using hkey)
  cases rest with
  | nil => rw [String.intercalate_singleton]
  | cons u l =>
    rw [String.intercalate_cons_cons, String.toList_append, String.toList_append, hcs]
    rfl

theorem last_intercalate (h : keys.getLast? = some key) (hkey : key ≠ "") :
    (String.intercalate "\n" keys).toList.getLast? = key.toList.getLast? := by
  obtain ⟨rest, rfl⟩ := List.getLast?_eq_some_iff.1 h
  have hlast : key.toList ≠ [] := by simpa using hkey
  by_cases hrest : rest = []
  · rw [hrest, List.nil_append, String.intercalate_singleton]
  · rw [String.intercalate_append_of_ne_nil hrest (List.cons_ne_nil _ _),
      String.intercalate_singleton, String.toList_append, List.getLast?_append,
      List.getLast?_eq_some_getLast hlast]
    rfl

/-- A text of lines whose ends are not blank has no newline to trim. -/
theorem trim_intercalate (hkeys : ∀ key ∈ keys, '\n' ∉ key.toList) (hne : keys ≠ [])
    (hhead : keys.head? ≠ some "") (hlast : keys.getLast? ≠ some "") :
    trimList (· = '\n') (String.intercalate "\n" keys).toList =
      (String.intercalate "\n" keys).toList := by
  obtain ⟨first, hfirst⟩ := Option.ne_none_iff_exists'.1 (mt List.head?_eq_none_iff.1 hne)
  obtain ⟨last, hlast'⟩ := Option.ne_none_iff_exists'.1 (mt List.getLast?_eq_none_iff.1 hne)
  rw [trimList_eq_self_iff, head_intercalate hfirst (by rintro rfl; exact hhead hfirst),
    last_intercalate hlast' (by rintro rfl; exact hlast hlast')]
  constructor
  · intro c hc
    rw [decide_eq_false_iff_not]
    rintro rfl
    exact hkeys first (List.mem_of_head? hfirst) (List.mem_of_head? hc)
  · intro c hc
    rw [decide_eq_false_iff_not]
    rintro rfl
    exact hkeys last (List.mem_of_getLast? hlast') (List.mem_of_getLast? hc)

/-- A text with no newline to trim is empty, or its first and last lines are not blank. -/
theorem ends_of_trim (htrim : trimList (· = '\n') (String.intercalate "\n" keys).toList =
      (String.intercalate "\n" keys).toList) (hne : String.intercalate "\n" keys ≠ "") :
    keys.head? ≠ some "" ∧ keys.getLast? ≠ some "" := by
  obtain ⟨hfirst, hlast⟩ := trimList_eq_self_iff.1 htrim
  constructor
  · intro h
    obtain ⟨rest, rfl⟩ := List.head?_eq_some_iff.1 h
    cases rest with
    | nil => exact hne String.intercalate_singleton
    | cons u l =>
      rw [String.intercalate_cons_cons] at hfirst
      have := hfirst '\n' (by simp)
      simp at this
  · intro h
    obtain ⟨rest, rfl⟩ := List.getLast?_eq_some_iff.1 h
    by_cases hrest : rest = []
    · subst hrest
      exact hne String.intercalate_singleton
    · rw [String.intercalate_append_of_ne_nil hrest (List.cons_ne_nil _ _),
        String.intercalate_singleton] at hlast
      have := hlast '\n' (by simp)
      simp at this

variable (unmarshal : String → Option (List String)) (keys)

/-- When keys come back from the text that they are put together into. -/
theorem resplits_iff : channelKeysFromRaw unmarshal (String.intercalate "\n" keys) = keys ↔
    Resplits unmarshal keys := by
  by_cases hnil : keys = []
  · subst hnil
    exact iff_of_true rfl (.inl rfl)
  rw [Resplits, or_iff_right hnil, channelKeysFromRaw]
  dsimp only
  by_cases hempty : String.intercalate "\n" keys = ""
  · rw [if_pos hempty]
    have hnot : ¬ ("[".toList.isPrefixOf (trimSpace (String.intercalate "\n" keys)).toList = true ∧
        (unmarshal (trimSpace (String.intercalate "\n" keys))).isSome = true) := by
      rw [hempty]
      rintro ⟨h, -⟩
      revert h
      decide +kernel
    rw [if_neg hnot]
    constructor
    · intro h
      exact absurd h.symm hnil
    · rintro ⟨hkeys, hhead, hlast⟩
      obtain ⟨first, hfirst⟩ := Option.ne_none_iff_exists'.1 (mt List.head?_eq_none_iff.1 hnil)
      have hne : first ≠ "" := by
        rintro rfl
        exact hhead hfirst
      have := head_intercalate hfirst hne
      rw [hempty] at this
      exact absurd (List.head?_eq_none_iff.1 this.symm) (by simpa using hne)
  rw [if_neg hempty]
  have hlines : Channels.split (String.ofList (trimList (· = '\n')
      (String.intercalate "\n" keys).toList)) '\n' = keys ↔
      (∀ key ∈ keys, '\n' ∉ key.toList) ∧ keys.head? ≠ some "" ∧ keys.getLast? ≠ some "" := by
    constructor
    · intro h
      have hkeys : ∀ key ∈ keys, '\n' ∉ key.toList := by
        intro key hkey
        rw [← h] at hkey
        exact not_mem_of_mem_split hkey
      have htrim := congrArg (String.intercalate "\n") h
      rw [intercalate_split] at htrim
      have htrim := congrArg String.toList htrim
      rw [String.toList_ofList] at htrim
      exact ⟨hkeys, ends_of_trim htrim hempty⟩
    · rintro ⟨hkeys, hhead, hlast⟩
      rw [trim_intercalate hkeys hnil hhead hlast, String.ofList_toList,
        split_intercalate hnil hkeys]
  by_cases harray : "[".toList.isPrefixOf (trimSpace (String.intercalate "\n" keys)).toList = true
  · rw [if_pos harray]
    cases hjson : unmarshal (trimSpace (String.intercalate "\n" keys)) with
    | none => simpa only [Option.getD_none, Option.isSome_none, Bool.false_eq_true, and_false,
        if_false] using hlines
    | some arr => simp only [Option.getD_some, Option.isSome_some, and_true, if_pos harray,
        Option.some.injEq]
  · rw [if_neg harray, if_neg fun h => harray h.1]
    exact hlines

end Texts

section Save

variable {unmarshal : String → Option (List String)} {store : Store} {channelID : Int}
  {c channel : Channel}

theorem lookup_foldl_erase (size : Int) (indexes : List Int) (list : Finmap fun _ : Int => Int)
    {index : Int} (h : index < size) :
    (indexes.foldl (fun list index => if size ≤ index then list.erase index else list)
      list).lookup index = list.lookup index := by
  induction indexes generalizing list with
  | nil => rfl
  | cons i indexes ih =>
    rw [List.foldl_cons, ih]
    split
    · rw [Finmap.lookup_erase_ne (by omega)]
    · rfl

variable (unmarshal channel) in
/-- What a save leaves in the table: the old text when the new one is empty, the number of keys of
the text, and the states of its keys as they were given. -/
theorem updateChannel_spec (hc : store channelID = some c)
    (hmulti : channel.channelInfo.isMultiKey = true) :
    ∃ c', updateChannel unmarshal store channelID channel channelID = some c' ∧
      c'.key = (if channel.key = "" then c.key else channel.key) ∧
      c'.channelInfo.isMultiKey = true ∧
      c'.channelInfo.multiKeySize = (c'.getKeys unmarshal).length ∧
      ∀ i < (c'.getKeys unmarshal).length, c'.stateAt i = channel.stateAt i := by
  have hprepared : prepareChannelForSave unmarshal store channelID channel =
      channel.sized unmarshal (if channel.key = "" then c.key else channel.key) := by
    rw [prepareChannelForSave, hmulti, hc]
    rfl
  have hset : (channel.sized unmarshal
      (if channel.key = "" then c.key else channel.key)).channelInfo ≠ {} := by
    intro h
    have : channel.channelInfo.isMultiKey = false := congrArg (·.isMultiKey) h
    rw [this] at hmulti
    cases hmulti
  refine ⟨⟨if channel.key = "" then c.key else channel.key, (channel.sized unmarshal
    (if channel.key = "" then c.key else channel.key)).channelInfo⟩, ?_, rfl, hmulti, rfl, ?_⟩
  · rw [updateChannel, Function.update_self, hc, Option.map_some, updateColumns, hprepared,
      if_neg hset]
    rfl
  intro i hi
  funext key
  simp only [Channel.stateAt, KeyState.mk.injEq, true_and]
  refine ⟨?_, rfl, rfl⟩
  simp only [readMultiKeyStatus]
  congr 1
  exact lookup_foldl_erase _ _ _ (Int.ofNat_lt.2 hi)

variable (unmarshal) in
/-- What a call that keeps the text leaves: the same keys, with the states that were given. -/
theorem kept_text (hc : store channelID = some c) (hkey : channel.key = c.key)
    (hmulti : channel.channelInfo.isMultiKey = true) :
    ∃ c', updateChannel unmarshal store channelID channel channelID = some c' ∧
      c'.states unmarshal = (c.getKeys unmarshal).mapIdx channel.stateAt ∧
      c'.channelInfo.multiKeySize = (c'.getKeys unmarshal).length ∧
      c'.getKeys unmarshal = c.getKeys unmarshal := by
  obtain ⟨c', hc', hkey', -, hsize, hstates⟩ := updateChannel_spec unmarshal channel hc hmulti
  have hkeys : c'.getKeys unmarshal = c.getKeys unmarshal := by
    rw [Channel.getKeys, Channel.getKeys, hkey', hkey]
    split
    next h => rfl
    next h => rfl
  refine ⟨c', hc', ?_, hsize, hkeys⟩
  rw [Channel.states, ← hkeys]
  apply List.ext_getElem
  · simp
  · intro i hi _
    have hlt : i < (c'.getKeys unmarshal).length := by simpa using hi
    rw [List.getElem_mapIdx, List.getElem_mapIdx, hstates i hlt]

end Save

section Statuses

variable {c : Channel} {keys : List String}

/-- A change of the state under one index. -/
theorem mapIdx_modify {stateAt stateAt' : Nat → String → KeyState} {f : KeyState → KeyState}
    {index : Int} (hlow : 0 ≤ index)
    (hown : ∀ i : Nat, i = index → ∀ key, stateAt' i key = f (stateAt i key))
    (hother : ∀ i : Nat, (i : Int) ≠ index → ∀ key, stateAt' i key = stateAt i key) :
    keys.mapIdx stateAt' = (keys.mapIdx stateAt).modify index.toNat f := by
  apply List.ext_getElem?
  intro i
  rw [List.getElem?_modify, List.getElem?_mapIdx, List.getElem?_mapIdx]
  cases keys[i]? with
  | none => simp
  | some key =>
    by_cases hi : index.toNat = i
    · simp [hi, hown i (by omega)]
    · simp [hi, hother i (by omega)]

/-- The status under an index. -/
def statusIn (list : Finmap fun _ : Int => Int) (index : Int) : Int :=
  let status : Option Int := list.lookup index
  status.getD channelStatusEnabled

/-- The loop disables the keys below its bound that are enabled. -/
theorem statusIn_disable (disabled : (Finmap fun _ : Int => Int) × Nat) (n : Nat) (i : Nat) :
    statusIn ((List.range n).foldl disableIfEnabled disabled).1 i =
      if i < n ∧ statusIn disabled.1 i = channelStatusEnabled then channelStatusManuallyDisabled
      else statusIn disabled.1 i := by
  induction n generalizing i with
  | zero =>
    rw [if_neg (by omega)]
    rfl
  | succ n ih =>
    have hown := ih n
    rw [if_neg (by omega)] at hown
    rw [List.range_succ, List.foldl_append, List.foldl_cons, List.foldl_nil]
    have hround (disabled' : (Finmap fun _ : Int => Int) × Nat) :
        statusIn (disableIfEnabled disabled' n).1 i =
          if i = n ∧ statusIn disabled'.1 n = channelStatusEnabled then
            channelStatusManuallyDisabled
          else statusIn disabled'.1 i := by
      rw [disableIfEnabled]
      by_cases henabled : statusIn disabled'.1 n = channelStatusEnabled
      · rw [if_neg (by simpa [statusIn] using henabled)]
        by_cases hi : i = n
        · rw [hi, if_pos ⟨rfl, henabled⟩]
          simp [statusIn]
        · rw [if_neg fun h => hi h.1, statusIn, statusIn, Finmap.lookup_insert_of_ne]
          omega
      · rw [if_pos (by simpa [statusIn] using henabled), if_neg fun h => henabled h.2]
    rw [hround, hown, ih]
    by_cases hi : i = n
    · subst hi
      by_cases henabled : statusIn disabled.1 i = channelStatusEnabled
      · rw [if_pos ⟨rfl, henabled⟩, if_pos ⟨by omega, henabled⟩]
      · rw [if_neg fun h => henabled h.2, if_neg fun h => henabled h.2, if_neg fun h => henabled h.2]
    · rw [if_neg fun h => hi h.1]
      have : i < n + 1 ↔ i < n := by omega
      simp only [this]

theorem requireValidMultiKeyIndex_ok {keyIndex : Option Int} {index : Int}
    (h : requireValidMultiKeyIndex c keyIndex = .ok index) :
    keyIndex = some index ∧ 0 ≤ index ∧ index < c.channelInfo.multiKeySize := by
  cases keyIndex with
  | none => cases h
  | some i =>
    rw [requireValidMultiKeyIndex] at h
    split at h
    · cases h
    · cases h
      exact ⟨rfl, by omega, by omega⟩

variable (unmarshal : String → Option (List String))

/-- What the operations on statuses save: the same text, and the states they are for. -/
structure SavesStates (op : Op) (c : Channel) (result : MultiKeyOperationResult)
    (channel : Channel) : Prop where
  key : channel.key = c.key
  multi : channel.channelInfo.isMultiKey = c.channelInfo.isMultiKey
  data : result.data = none
  states : (c.getKeys unmarshal).mapIdx channel.stateAt =
    op.apply c.channelInfo.multiKeySize (c.states unmarshal)

variable {result : MultiKeyOperationResult} {channel : Channel} {keyIndex : Option Int}

theorem index_of_ok {f : Int → Outcome}
    (h : (requireValidMultiKeyIndex c keyIndex >>= f) = .ok (result, channel)) :
    ∃ index, keyIndex = some index ∧ 0 ≤ index ∧ f index = .ok (result, channel) := by
  cases hindex : requireValidMultiKeyIndex c keyIndex with
  | error e =>
    rw [hindex] at h
    cases h
  | ok index =>
    obtain ⟨hkey, hlow, -⟩ := requireValidMultiKeyIndex_ok hindex
    rw [hindex] at h
    exact ⟨index, hkey, hlow, h⟩

theorem savesStates_disable (h : disableMultiKey c keyIndex = .ok (result, channel)) :
    SavesStates unmarshal (.disableMultiKey keyIndex) c result channel := by
  rw [disableMultiKey] at h
  obtain ⟨index, rfl, hlow, h⟩ := index_of_ok h
  cases h
  refine ⟨rfl, rfl, rfl, mapIdx_modify hlow ?_ ?_⟩
  · rintro i rfl key
    simp [Channel.stateAt, KeyState.disable, readMultiKeyStatus]
  · intro i hi key
    simp [Channel.stateAt, readMultiKeyStatus, Finmap.lookup_insert_of_ne _ hi]

theorem savesStates_enable (h : enableMultiKey c keyIndex = .ok (result, channel)) :
    SavesStates unmarshal (.enableMultiKey keyIndex) c result channel := by
  rw [enableMultiKey] at h
  obtain ⟨index, rfl, hlow, h⟩ := index_of_ok h
  cases h
  refine ⟨rfl, rfl, rfl, mapIdx_modify hlow ?_ ?_⟩
  · rintro i rfl key
    simp [Channel.stateAt, KeyState.enable, readMultiKeyStatus]
  · intro i hi key
    simp [Channel.stateAt, readMultiKeyStatus, Finmap.lookup_erase_ne hi]

theorem savesStates_enableAll (h : enableAllMultiKeys c = .ok (result, channel)) :
    SavesStates unmarshal .enableAllMultiKeys c result channel := by
  cases h
  refine ⟨rfl, rfl, rfl, ?_⟩
  apply List.ext_getElem
  · simp [Op.apply, Channel.states]
  · intro i _ _
    simp [Op.apply, Channel.states, Channel.stateAt, KeyState.enable, readMultiKeyStatus]

theorem savesStates_disableAll (h : disableAllMultiKeys c = .ok (result, channel)) :
    SavesStates unmarshal .disableAllMultiKeys c result channel := by
  simp only [disableAllMultiKeys] at h
  split at h
  · cases h
  · cases h
    refine ⟨rfl, rfl, rfl, ?_⟩
    apply List.ext_getElem
    · simp [Op.apply, Channel.states]
    · intro i _ _
      have hstatus := statusIn_disable (c.channelInfo.multiKeyStatusList, 0)
        c.channelInfo.multiKeySize.toNat i
      have hbound : i < c.channelInfo.multiKeySize.toNat ↔ (i : Int) < c.channelInfo.multiKeySize := by
        omega
      simp only [hbound] at hstatus
      simp only [Op.apply, Channel.states, List.getElem_mapIdx]
      have hread (key : String) : (c.stateAt i key).status =
          statusIn c.channelInfo.multiKeyStatusList i := rfl
      rw [hread]
      split
      next hdisabled =>
        rw [if_pos hdisabled] at hstatus
        simp only [Channel.stateAt, KeyState.disable, KeyState.mk.injEq, true_and, and_true]
        exact hstatus
      next hkept =>
        rw [if_neg hkept] at hstatus
        simp only [Channel.stateAt, KeyState.mk.injEq, true_and, and_true]
        exact hstatus

end Statuses

section Deletions

variable {c : Channel}

/-- The keys that were kept so far, with the states they were given. -/
def Remaining.states (kept : Remaining) : List KeyState :=
  kept.remainingKeys.mapIdx fun i key => {
    key := key
    status := statusIn kept.newStatusList i
    disabledTime := kept.newDisabledTime.lookup (i : Int)
    reason := kept.newDisabledReason.lookup (i : Int) }

/-- Nothing is known yet under the index of the next key and beyond. -/
structure Remaining.Fresh (kept : Remaining) : Prop where
  status : ∀ i : Nat, kept.remainingKeys.length ≤ i → kept.newStatusList.lookup (i : Int) = none
  time : ∀ i : Nat, kept.remainingKeys.length ≤ i → kept.newDisabledTime.lookup (i : Int) = none
  reason : ∀ i : Nat, kept.remainingKeys.length ≤ i →
    kept.newDisabledReason.lookup (i : Int) = none

theorem lookup_insertSome {β : Type} (m : Finmap fun _ : Int => β) (value : Option β) (n i : Nat)
    (hfresh : m.lookup (n : Int) = none) : (insertSome m n value).lookup (i : Int) =
      if i = n then value else m.lookup (i : Int) := by
  cases value with
  | none =>
    by_cases hi : i = n
    · subst hi
      simp [insertSome, hfresh]
    · simp [insertSome, hi]
  | some v =>
    by_cases hi : i = n
    · subst hi
      simp [insertSome]
    · have : (i : Int) ≠ n := by omega
      simp [insertSome, hi, Finmap.lookup_insert_of_ne _ this]

theorem keep_lookups (kept : Remaining) (hfresh : kept.Fresh) (key : String)
    (currentIndex : Int) (i : Nat) :
    (statusIn (kept.keep c key currentIndex).newStatusList i =
        if i = kept.remainingKeys.length then readMultiKeyStatus c currentIndex
        else statusIn kept.newStatusList i) ∧
      (kept.keep c key currentIndex).newDisabledTime.lookup (i : Int) =
        (if i = kept.remainingKeys.length then
          c.channelInfo.multiKeyDisabledTime.lookup currentIndex
        else kept.newDisabledTime.lookup (i : Int)) ∧
      (kept.keep c key currentIndex).newDisabledReason.lookup (i : Int) =
        if i = kept.remainingKeys.length then
          c.channelInfo.multiKeyDisabledReason.lookup currentIndex
        else kept.newDisabledReason.lookup (i : Int) := by
  refine ⟨?_, ?_, ?_⟩
  · have hnone := hfresh.status kept.remainingKeys.length (le_refl _)
    simp only [Remaining.keep, statusIn]
    by_cases hstatus : readMultiKeyStatus c currentIndex = channelStatusEnabled
    · rw [if_neg (not_not_intro hstatus)]
      by_cases hi : i = kept.remainingKeys.length
      · rw [if_pos hi, hi, hnone, hstatus]
        rfl
      · rw [if_neg hi]
    · rw [if_pos hstatus]
      by_cases hi : i = kept.remainingKeys.length
      · rw [if_pos hi, hi, Finmap.lookup_insert]
        rfl
      · rw [if_neg hi, Finmap.lookup_insert_of_ne _ (by omega)]
  · exact lookup_insertSome _ _ _ i (hfresh.time _ (le_refl _))
  · exact lookup_insertSome _ _ _ i (hfresh.reason _ (le_refl _))

theorem keep_fresh {kept : Remaining} (hfresh : kept.Fresh) (key : String) (currentIndex : Int) :
    (kept.keep c key currentIndex).Fresh := by
  have hlength : (kept.keep c key currentIndex).remainingKeys.length =
      kept.remainingKeys.length + 1 := by
    rw [Remaining.keep, List.length_append, List.length_singleton]
  constructor
  · intro i hi
    have hne : (i : Int) ≠ kept.remainingKeys.length := by omega
    have hnone := hfresh.status i (by omega)
    simp only [Remaining.keep]
    split
    · rw [Finmap.lookup_insert_of_ne _ hne, hnone]
    · exact hnone
  · intro i hi
    rw [(keep_lookups kept hfresh key currentIndex i).2.1, if_neg (by omega)]
    exact hfresh.time i (by omega)
  · intro i hi
    rw [(keep_lookups kept hfresh key currentIndex i).2.2, if_neg (by omega)]
    exact hfresh.reason i (by omega)

/-- Keeping a key adds it with its state. -/
theorem keep_states {kept : Remaining} (hfresh : kept.Fresh) (key : String) (currentIndex : Nat) :
    (kept.keep c key currentIndex).states = kept.states ++ [c.stateAt currentIndex key] := by
  apply List.ext_getElem?
  intro i
  have hlookups := keep_lookups (c := c) kept hfresh key currentIndex i
  have hkeys : (kept.keep c key currentIndex).remainingKeys = kept.remainingKeys ++ [key] := rfl
  rw [Remaining.states, List.getElem?_mapIdx, hkeys, hlookups.1, hlookups.2.1, hlookups.2.2]
  rcases lt_trichotomy i kept.remainingKeys.length with hi | hi | hi
  · have hi' : i < kept.states.length := by simpa [Remaining.states] using hi
    rw [List.getElem?_append_left hi, List.getElem?_append_left hi', Remaining.states,
      List.getElem?_mapIdx]
    simp only [if_neg (show i ≠ kept.remainingKeys.length by omega)]
  · subst hi
    have hlength : kept.states.length = kept.remainingKeys.length := by simp [Remaining.states]
    rw [List.getElem?_concat_length, ← hlength, List.getElem?_concat_length, hlength]
    simp only [if_true, Option.map_some]
    rfl
  · have hlength : kept.states.length = kept.remainingKeys.length := by simp [Remaining.states]
    rw [List.getElem?_eq_none (by simp; omega), List.getElem?_eq_none (by simp; omega)]
    rfl

variable (unmarshal : String → Option (List String))

/-- The loop keeps the keys that are not deleted, in their order and with their states. -/
theorem states_remaining (deleted : Int → Bool) :
    (Remaining.of unmarshal c deleted).states =
      (((c.getKeys unmarshal).zipIdx.filter fun key => !deleted key.2).map fun key =>
        c.stateAt key.2 key.1) := by
  rw [Remaining.of]
  have hloop (keys : List (String × Nat)) (kept : Remaining) (hfresh : kept.Fresh) :
      (keys.foldl (fun kept key => if deleted key.2 then kept else kept.keep c key.1 key.2)
        kept).states = kept.states ++
          (keys.filter fun key => !deleted key.2).map fun key => c.stateAt key.2 key.1 := by
    induction keys generalizing kept with
    | nil => simp
    | cons key keys ih =>
      rw [List.foldl_cons, List.filter_cons]
      by_cases hdeleted : deleted key.2 = true
      · rw [if_pos hdeleted, ih kept hfresh]
        simp [hdeleted]
      · rw [if_neg hdeleted, ih _ (keep_fresh hfresh key.1 key.2), keep_states hfresh]
        simp [hdeleted]
  rw [hloop _ _ ⟨fun _ _ => Finmap.lookup_empty _, fun _ _ => Finmap.lookup_empty _,
    fun _ _ => Finmap.lookup_empty _⟩]
  rfl

theorem states_eq_map : c.states unmarshal =
    (c.getKeys unmarshal).zipIdx.map fun key => c.stateAt key.2 key.1 :=
  List.mapIdx_eq_zipIdx_map

/-- Leaving out one place of a list that is numbered from some number on. -/
theorem filter_zipIdx {f : String × Nat → KeyState} (keys : List String) (start index : Nat) :
    ((keys.zipIdx start).filter fun key => !decide (key.2 = start + index)).map f =
      ((keys.zipIdx start).map f).eraseIdx index := by
  induction keys generalizing start index with
  | nil => simp
  | cons key keys ih =>
    rw [List.zipIdx_cons, List.filter_cons]
    cases index with
    | zero =>
      have hall : (keys.zipIdx (start + 1)).filter (fun key => !decide (key.2 = start + 0)) =
          keys.zipIdx (start + 1) := by
        rw [List.filter_eq_self]
        intro key' hkey'
        have := List.le_snd_of_mem_zipIdx hkey'
        simp only [Bool.not_eq_true', decide_eq_false_iff_not]
        omega
      rw [hall]
      simp
    | succ index =>
      have hsame : (fun key : String × Nat => !decide (key.2 = start + (index + 1))) =
          fun key => !decide (key.2 = start + 1 + index) := by
        funext key'
        congr 2
        rw [eq_iff_iff]
        omega
      rw [hsame, if_pos (by simp), List.map_cons, ih (start + 1) index, List.map_cons,
        List.eraseIdx_cons_succ]

theorem states_remaining_one {index : Int} (hindex : 0 ≤ index) :
    (Remaining.of unmarshal c (· = index)).states = (c.states unmarshal).eraseIdx index.toNat := by
  rw [states_remaining, states_eq_map, ← filter_zipIdx _ 0 index.toNat]
  congr 2
  funext key
  congr 2
  rw [eq_iff_iff]
  omega

theorem states_remaining_auto :
    (Remaining.of unmarshal c (isAutoDisabled c)).states =
      (c.states unmarshal).filter (·.status ≠ channelStatusAutoDisabled) := by
  rw [states_remaining, states_eq_map, List.filter_map]
  congr 2
  funext key
  simp [isAutoDisabled, Channel.stateAt]

theorem keys_of_states : (c.states unmarshal).map (·.key) = c.getKeys unmarshal := by
  apply List.ext_getElem
  · simp [Channel.states]
  · intro i _ _
    simp [Channel.states, Channel.stateAt]

theorem length_states : (c.states unmarshal).length = (c.getKeys unmarshal).length :=
  List.length_mapIdx

theorem keys_of_remaining (kept : Remaining) : kept.states.map (·.key) = kept.remainingKeys := by
  apply List.ext_getElem
  · simp [Remaining.states]
  · intro i _ _
    simp [Remaining.states]

variable {store : Store} {channelID : Int} {kept : Remaining}

/-- A deletion leaves the keys that it kept exactly when they come back from their text, and some
are left. -/
theorem deletion_iff (hc : store channelID = some c) (hmulti : c.channelInfo.isMultiKey = true)
    (hshort : kept.states.length = (c.states unmarshal).length → (c.states unmarshal).length ≠ 1) :
    (∃ c', updateChannel unmarshal store channelID (kept.channel c) channelID = some c' ∧
      c'.states unmarshal = kept.states ∧
      (c.getKeys unmarshal ≠ [] → c'.getKeys unmarshal ≠ [])) ↔
      Resplits unmarshal (kept.states.map (·.key)) ∧
        (c.getKeys unmarshal ≠ [] → kept.states ≠ []) := by
  obtain ⟨c', hc', hkey, -, -, hstates⟩ := updateChannel_spec unmarshal (kept.channel c) hc hmulti
  have hkeyOf : (kept.channel c).key = String.intercalate "\n" kept.remainingKeys := rfl
  have hresplits := resplits_iff kept.remainingKeys unmarshal
  rw [keys_of_remaining, ← hresplits]
  have hsame : (∃ c'', updateChannel unmarshal store channelID (kept.channel c) channelID =
        some c'' ∧ c''.states unmarshal = kept.states ∧
        (c.getKeys unmarshal ≠ [] → c''.getKeys unmarshal ≠ [])) ↔
      c'.states unmarshal = kept.states ∧
        (c.getKeys unmarshal ≠ [] → c'.getKeys unmarshal ≠ []) := by
    simp only [hc', Option.some.injEq, exists_eq_left']
  rw [hsame]
  have hempty (d : Channel) : d.states unmarshal = [] ↔ d.getKeys unmarshal = [] := by
    rw [← List.length_eq_zero_iff, length_states, List.length_eq_zero_iff]
  by_cases hnone : String.intercalate "\n" kept.remainingKeys = ""
  · -- the old text stays, and with it all the keys
    rw [hkeyOf, if_pos hnone] at hkey
    have hkeys : c'.getKeys unmarshal = c.getKeys unmarshal := by
      rw [Channel.getKeys, Channel.getKeys, hkey]
    rw [hnone]
    have hraw : channelKeysFromRaw unmarshal "" = [] := rfl
    rw [hraw, hkeys]
    have hfew : kept.states.length ≤ 1 := by
      rw [← List.length_map (·.key), keys_of_remaining]
      by_contra hmany
      obtain ⟨key, key', rest, hcons⟩ : ∃ key key' rest,
          kept.remainingKeys = key :: key' :: rest := by
        match hkeys : kept.remainingKeys with
        | [] => simp [hkeys] at hmany
        | [_] => simp [hkeys] at hmany
        | key :: key' :: rest => exact ⟨key, key', rest, rfl⟩
      rw [hcons, String.intercalate_cons_cons] at hnone
      have := congrArg String.toList hnone
      simp at this
    constructor
    · rintro ⟨hall, -⟩
      have hlength := congrArg List.length hall
      rw [length_states, hkeys, ← length_states] at hlength
      have := hshort hlength.symm
      have hzero : kept.states = [] := by
        rw [← List.length_eq_zero_iff]
        omega
      have hkept := keys_of_remaining kept
      rw [hzero] at hkept
      refine ⟨hkept, fun hne => ?_⟩
      rw [hzero, List.length_nil, length_states, List.length_eq_zero_iff] at hlength
      exact absurd hlength hne
    · rintro ⟨hkept, hleft⟩
      have hzero : kept.states = [] := by
        rw [← List.map_eq_nil_iff (f := (·.key)), keys_of_remaining, ← hkept]
      have hnil : c.getKeys unmarshal = [] := by
        by_contra hne
        exact hleft hne hzero
      refine ⟨?_, fun hne => hne⟩
      rw [hzero, hempty, hkeys, hnil]
  · rw [hkeyOf, if_neg hnone] at hkey
    have hkeys : c'.getKeys unmarshal =
        channelKeysFromRaw unmarshal (String.intercalate "\n" kept.remainingKeys) := by
      rw [Channel.getKeys, hkey]
    constructor
    · rintro ⟨hall, hleft⟩
      have hmap := congrArg (List.map (·.key)) hall
      rw [keys_of_states, keys_of_remaining, hkeys] at hmap
      refine ⟨hmap, fun hne hnil => hleft hne ?_⟩
      rw [← hempty, hall, hnil]
    · rintro ⟨hback, hleft⟩
      rw [hback] at hkeys
      have hall : c'.states unmarshal = kept.states := by
        apply List.ext_getElem
        · rw [length_states, hkeys]
          simp [Remaining.states]
        · intro i hi _
          rw [length_states] at hi
          simp only [Channel.states, Remaining.states, List.getElem_mapIdx, hstates i hi, hkeys]
          rfl
      refine ⟨hall, fun hne hnil => hleft hne ?_⟩
      rw [← hall, hempty, hnil]

end Deletions

section Runs

variable {unmarshal : String → Option (List String)} {store : Store} {call : Call} {c : Channel}

theorem managed_ok {channelID : Int} (h : getManagedMultiKeyChannel store channelID = .ok c) :
    store channelID = some c ∧ c.channelInfo.isMultiKey = true := by
  rw [getManagedMultiKeyChannel] at h
  split at h
  · cases h
  next channel hfound =>
    split at h
    · cases h
    next hmulti =>
      cases h
      exact ⟨hfound, by simpa using hmulti⟩

/-- A call that succeeds has run its operation, and has saved the channel it came to. -/
theorem perform_eq (hc : getManagedMultiKeyChannel store call.channelID = .ok c) :
    perform unmarshal store call = match call.op.run unmarshal c with
      | .ok (result, channel) =>
        (.ok result, updateChannel unmarshal store call.channelID channel)
      | .error e => (.error e, store) := by
  rw [perform, hc]
  rfl

theorem kept_iff (hc : getManagedMultiKeyChannel store call.channelID = .ok c) :
    Kept unmarshal store call ↔ ∀ result channel, call.op.run unmarshal c = .ok (result, channel) →
      ∃ c', updateChannel unmarshal store call.channelID channel call.channelID = some c' ∧
        KeptBy unmarshal call.op c result c' := by
  constructor
  · intro h result channel hrun
    have hkept := h c result hc (by rw [perform_eq hc, hrun])
    rwa [perform_eq hc, hrun] at hkept
  · intro h d result hd hresult
    rw [hc, Except.ok.injEq] at hd
    subst hd
    rw [perform_eq hc] at hresult ⊢
    cases hrun : call.op.run unmarshal c with
    | error e =>
      rw [hrun] at hresult
      cases hresult
    | ok outcome =>
      rw [hrun] at hresult
      cases hresult
      exact h _ _ hrun

/-- Operations on statuses keep everything together. -/
theorem keptBy_of_savesStates {op : Op} {result : MultiKeyOperationResult} {channel : Channel}
    {channelID : Int} (hc : store channelID = some c) (hmulti : c.channelInfo.isMultiKey = true)
    (h : SavesStates unmarshal op c result channel) :
    ∃ c', updateChannel unmarshal store channelID channel channelID = some c' ∧
      KeptBy unmarshal op c result c' := by
  obtain ⟨c', hc', hstates, hsize, hkeys⟩ := kept_text unmarshal hc h.key
    (h.multi.trans hmulti)
  refine ⟨c', hc', hstates.trans h.states, ?_, hsize, fun hne => by rwa [hkeys]⟩
  intro n hn
  rw [h.data] at hn
  cases hn

variable (unmarshal) in
/-- As many keys are reported deleted as are. -/
theorem countP_isAutoDisabled (c : Channel) :
    ((c.states unmarshal).filter (·.status ≠ channelStatusAutoDisabled)).length +
      (List.range (c.getKeys unmarshal).length).countP (fun index : Nat => isAutoDisabled c index) =
        (c.states unmarshal).length := by
  have hstatuses : (List.range (c.getKeys unmarshal).length).countP
      (fun index : Nat => isAutoDisabled c index) =
      (c.states unmarshal).countP (·.status = channelStatusAutoDisabled) := by
    have hmap : (c.states unmarshal).map (·.status) =
        (List.range (c.getKeys unmarshal).length).map
          fun index : Nat => readMultiKeyStatus c index := by
      apply List.ext_getElem
      · simp [Channel.states]
      · intro i _ _
        simp [Channel.states, Channel.stateAt]
    have hcount := congrArg (List.countP fun status => decide (status = channelStatusAutoDisabled))
      hmap
    rw [List.countP_map, List.countP_map] at hcount
    exact hcount.symm
  rw [hstatuses, ← List.countP_eq_length_filter]
  generalize c.states unmarshal = states
  induction states with
  | nil => rfl
  | cons s states ih =>
    rw [List.countP_cons, List.countP_cons, List.length_cons]
    by_cases hs : s.status = channelStatusAutoDisabled
    · simp only [hs, ne_eq, not_true_eq_false, decide_false, decide_true, if_true,
        Bool.false_eq_true, if_false] at ih ⊢
      omega
    · simp only [hs, ne_eq, not_false_eq_true, decide_false, decide_true, if_true,
        Bool.false_eq_true, if_false] at ih ⊢
      omega

/-- A deletion keeps everything together exactly when what it keeps comes back from its text. -/
theorem keptBy_deletion_iff {op : Op} {result : MultiKeyOperationResult} {kept : Remaining}
    {channelID : Int} (hc : store channelID = some c) (hmulti : c.channelInfo.isMultiKey = true)
    (happly : op.apply c.channelInfo.multiKeySize (c.states unmarshal) = kept.states)
    (hreported : ∀ n, result.data = some n →
      kept.states.length + n = (c.states unmarshal).length)
    (hshort : kept.states.length = (c.states unmarshal).length → (c.states unmarshal).length ≠ 1) :
    (∃ c', updateChannel unmarshal store channelID (kept.channel c) channelID = some c' ∧
      KeptBy unmarshal op c result c') ↔
      Resplits unmarshal (kept.states.map (·.key)) ∧
        (c.getKeys unmarshal ≠ [] → kept.states ≠ []) := by
  rw [← deletion_iff unmarshal hc hmulti hshort]
  constructor
  · rintro ⟨c', hc', h⟩
    exact ⟨c', hc', h.states.trans happly, h.some_key⟩
  · rintro ⟨c', hc', hstates, hsome⟩
    obtain ⟨d, hd, -, -, hsize, -⟩ := updateChannel_spec unmarshal (kept.channel c) hc hmulti
    rw [hd, Option.some.injEq] at hc'
    subst hc'
    refine ⟨d, hd, hstates.trans happly.symm, ?_, hsize, hsome⟩
    rw [hstates]
    exact hreported

theorem deleteMultiKey_run (index : Int) :
    deleteMultiKey unmarshal c (some index) =
      if 0 ≤ index ∧ index < c.channelInfo.multiKeySize then
        if (c.getKeys unmarshal).length = 1 then .error .cannotDeleteLastKey
        else .ok (⟨"密钥已删除", none⟩, (Remaining.of unmarshal c (· = index)).channel c)
      else .error .keyIndexOutOfRange := by
  rw [deleteMultiKey, requireValidMultiKeyIndex]
  by_cases hindex : index < 0 ∨ c.channelInfo.multiKeySize ≤ index
  · rw [if_pos hindex, if_neg (by omega)]
    rfl
  · rw [if_neg hindex, if_pos (by omega)]
    show (if (c.getKeys unmarshal).length = 1 then _ else _) = _
    split <;> rfl

/-- What a check of an outcome comes to, when the outcome is known. -/
theorem forall_ok_iff {result : MultiKeyOperationResult} {channel : Channel}
    {P : MultiKeyOperationResult → Channel → Prop} :
    (∀ result' channel', (.ok (result, channel) : Outcome) = .ok (result', channel') →
      P result' channel') ↔ P result channel := by
  constructor
  · intro h
    exact h result channel rfl
  · rintro h result' channel' heq
    cases heq
    exact h

theorem kept_deleteMultiKey {channelID : Int} (index : Int) (hc : store channelID = some c)
    (hmulti : c.channelInfo.isMultiKey = true) :
    (∀ result channel, deleteMultiKey unmarshal c (some index) = .ok (result, channel) →
      ∃ c', updateChannel unmarshal store channelID channel channelID = some c' ∧
        KeptBy unmarshal (.deleteMultiKey (some index)) c result c') ↔
      (0 ≤ index → index < c.channelInfo.multiKeySize → (c.getKeys unmarshal).length ≠ 1 →
        Resplits unmarshal ((c.getKeys unmarshal).eraseIdx index.toNat)) := by
  rw [deleteMultiKey_run]
  by_cases hindex : 0 ≤ index ∧ index < c.channelInfo.multiKeySize
  · rw [if_pos hindex]
    by_cases hone : (c.getKeys unmarshal).length = 1
    · rw [if_pos hone]
      constructor
      · intro _ _ _ hne
        exact absurd hone hne
      · intro _ result channel hrun
        cases hrun
    · have hstates := states_remaining_one (c := c) unmarshal hindex.1
      have hkeys : ((c.states unmarshal).eraseIdx index.toNat).map (·.key) =
          (c.getKeys unmarshal).eraseIdx index.toNat := by
        rw [← keys_of_states, List.eraseIdx_map]
      have happly : Op.apply c.channelInfo.multiKeySize (c.states unmarshal)
          (.deleteMultiKey (some index)) = (Remaining.of unmarshal c (· = index)).states :=
        hstates.symm
      have hreported : ∀ n, (⟨"密钥已删除", none⟩ : MultiKeyOperationResult).data = some n →
          (Remaining.of unmarshal c (· = index)).states.length + n =
            (c.states unmarshal).length := by
        intro n hn
        cases hn
      have hshort : (Remaining.of unmarshal c (· = index)).states.length =
          (c.states unmarshal).length → (c.states unmarshal).length ≠ 1 := by
        intro _
        rwa [length_states]
      rw [if_neg hone, forall_ok_iff, keptBy_deletion_iff hc hmulti happly hreported hshort,
        hstates, hkeys]
      have hleft : c.getKeys unmarshal ≠ [] → (c.states unmarshal).eraseIdx index.toNat ≠ [] := by
        intro hne hnil
        have hpos := List.length_pos_of_ne_nil hne
        have hlength := congrArg List.length hnil
        rw [List.length_eraseIdx, length_states, List.length_nil] at hlength
        split at hlength <;> omega
      constructor
      · rintro ⟨hresplits, -⟩ _ _ _
        exact hresplits
      · intro h
        exact ⟨h hindex.1 hindex.2 hone, hleft⟩
  · rw [if_neg hindex]
    constructor
    · intro _ hlow hhigh
      exact absurd ⟨hlow, hhigh⟩ hindex
    · intro _ result channel hrun
      cases hrun

theorem kept_deleteAuto {channelID : Int} (hc : store channelID = some c)
    (hmulti : c.channelInfo.isMultiKey = true) :
    (∀ result channel, deleteAutoDisabledMultiKeys unmarshal c = .ok (result, channel) →
      ∃ c', updateChannel unmarshal store channelID channel channelID = some c' ∧
        KeptBy unmarshal .deleteAutoDisabledMultiKeys c result c') ↔
      (((c.states unmarshal).filter (·.status ≠ channelStatusAutoDisabled)).length ≠
          (c.states unmarshal).length →
        (c.states unmarshal).filter (·.status ≠ channelStatusAutoDisabled) ≠ [] ∧
        Resplits unmarshal
          (((c.states unmarshal).filter (·.status ≠ channelStatusAutoDisabled)).map (·.key))) := by
  have hcount := countP_isAutoDisabled unmarshal c
  have hstates := states_remaining_auto (c := c) unmarshal
  simp only [deleteAutoDisabledMultiKeys]
  generalize (List.range (c.getKeys unmarshal).length).countP
    (fun index : Nat => isAutoDisabled c index) = deletedCount at hcount ⊢
  by_cases hnone : deletedCount = 0
  · rw [if_pos hnone]
    constructor
    · intro _ hne
      omega
    · intro _ result channel hrun
      cases hrun
  · have hreported : ∀ n, some deletedCount = some n →
        (Remaining.of unmarshal c (isAutoDisabled c)).states.length + n =
          (c.states unmarshal).length := by
      rintro n hn
      cases hn
      rwa [hstates]
    have hshort : (Remaining.of unmarshal c (isAutoDisabled c)).states.length =
        (c.states unmarshal).length → (c.states unmarshal).length ≠ 1 := by
      rw [hstates]
      omega
    have happly : Op.apply c.channelInfo.multiKeySize (c.states unmarshal)
        .deleteAutoDisabledMultiKeys = (Remaining.of unmarshal c (isAutoDisabled c)).states :=
      hstates.symm
    rw [if_neg hnone, forall_ok_iff, keptBy_deletion_iff hc hmulti happly hreported hshort, hstates]
    have hkeys : c.getKeys unmarshal ≠ [] := by
      intro hnil
      have := length_states (c := c) unmarshal
      rw [hnil, List.length_nil] at this
      omega
    constructor
    · rintro ⟨hresplits, hleft⟩ _
      exact ⟨hleft hkeys, hresplits⟩
    · intro h
      obtain ⟨hleft, hresplits⟩ := h (by omega)
      exact ⟨hresplits, fun _ => hleft⟩

theorem kept_iff_careful : Kept unmarshal store call ↔ Careful unmarshal store call := by
  cases hc : getManagedMultiKeyChannel store call.channelID with
  | error e =>
    constructor
    · intro _ c hc'
      rw [hc] at hc'
      cases hc'
    · intro _ c result hc'
      rw [hc] at hc'
      cases hc'
  | ok c =>
    obtain ⟨hfound, hmulti⟩ := managed_ok hc
    rw [kept_iff hc]
    simp only [Careful, hc, Except.ok.injEq, forall_eq']
    cases hop : call.op with
    | disableMultiKey keyIndex =>
      simp only [iff_true]
      intro result channel hrun
      exact keptBy_of_savesStates hfound hmulti (savesStates_disable unmarshal hrun)
    | enableMultiKey keyIndex =>
      simp only [iff_true]
      intro result channel hrun
      exact keptBy_of_savesStates hfound hmulti (savesStates_enable unmarshal hrun)
    | enableAllMultiKeys =>
      simp only [iff_true]
      intro result channel hrun
      exact keptBy_of_savesStates hfound hmulti (savesStates_enableAll unmarshal hrun)
    | disableAllMultiKeys =>
      simp only [iff_true]
      intro result channel hrun
      exact keptBy_of_savesStates hfound hmulti (savesStates_disableAll unmarshal hrun)
    | deleteMultiKey keyIndex =>
      cases keyIndex with
      | none =>
        simp only [iff_true]
        intro result channel hrun
        cases hrun
      | some index => exact kept_deleteMultiKey index hfound hmulti
    | deleteAutoDisabledMultiKeys => exact kept_deleteAuto hfound hmulti

/-- Along a run every call that succeeds keeps the keys and their states together exactly when
every deletion leaves keys that come back from their text. -/
theorem multi_keys_kept_iff (calls : List Call) :
    Along unmarshal (Kept unmarshal) store calls ↔
      Along unmarshal (Careful unmarshal) store calls := by
  induction calls generalizing store with
  | nil => exact Iff.rfl
  | cons call calls ih => exact and_congr kept_iff_careful ih

/-- Two keys, both disabled automatically. -/
def twoDisabled : Channel where
  key := "sk-a\nsk-b"
  channelInfo :=
    { isMultiKey := true
      multiKeySize := 2
      multiKeyStatusList := (∅ : Finmap fun _ : Int => Int).insert 0 3 |>.insert 1 3 }

def bothDisabled : Store := fun id => if id = 1 then some twoDisabled else none

/-- Three lines, the second one blank. -/
def blankLine : Store := fun id =>
  if id = 1 then some
    { key := "sk-a\n\nsk-b", channelInfo := { isMultiKey := true, multiKeySize := 3 } }
  else none

def statesAfter (store : Store) (call : Call) : Option (Bool × List KeyState) :=
  ((perform (fun _ => none) store call).2 call.channelID).map fun c =>
    ((perform (fun _ => none) store call).1.toBool, c.states fun _ => none)

/-- Deleting all the keys reports success, and leaves them all and enabled; deleting the key before
a blank line deletes the blank line too. -/
theorem deleted_keys_stay :
    statesAfter bothDisabled ⟨1, .deleteAutoDisabledMultiKeys⟩ =
        some (true, [⟨"sk-a", 1, none, none⟩, ⟨"sk-b", 1, none, none⟩]) ∧
      statesAfter blankLine ⟨1, .deleteMultiKey (some 0)⟩ =
        some (true, [⟨"sk-b", 1, none, none⟩]) ∧
      ¬ Along (fun _ => none) (Kept fun _ => none) bothDisabled
        [⟨1, .deleteAutoDisabledMultiKeys⟩] := by
  have hafter : statesAfter bothDisabled ⟨1, .deleteAutoDisabledMultiKeys⟩ =
      some (true, [⟨"sk-a", 1, none, none⟩, ⟨"sk-b", 1, none, none⟩]) := by decide +kernel
  refine ⟨hafter, by decide +kernel, ?_⟩
  rintro ⟨h, -⟩
  have hresult : (perform (fun _ => none) bothDisabled ⟨1, .deleteAutoDisabledMultiKeys⟩).1 =
      .ok ⟨"已删除 2 个自动禁用的密钥", some 2⟩ := by decide +kernel
  obtain ⟨c', hc', hkept⟩ := h twoDisabled _ rfl hresult
  have hleft : Op.apply 2 (twoDisabled.states fun _ => none) .deleteAutoDisabledMultiKeys = [] := by
    decide +kernel
  have hstates : c'.states (fun _ => none) = [] := hkept.states.trans hleft
  simp only [statesAfter, hc', Option.map_some, hstates, Option.some.injEq, Prod.mk.injEq] at hafter
  exact absurd hafter.2 (List.cons_ne_nil _ _).symm

end Runs

end CodeGo.Gateway.MultiKeys
