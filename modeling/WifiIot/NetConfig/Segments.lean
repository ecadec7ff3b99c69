import WifiIot.NetConfig.Basic
import WifiIot.NetConfig.Credentials

/-!
# The chunks of a client

`NetCfgGetSocketValue` parses what each `recvfrom` returns as a message of its
own; nothing of a chunk is kept for the next one.  The buffer is cleared before,
so a chunk that leaves room in it is followed by a NUL, and a chunk that fills
it is read on behind the buffer if it has none.

Source: `astronauts_game/common/netcfg/src/network_config.c`.
-/

namespace WifiIot.Credentials

open Memory NetConfig

universe u

def BUF_SHORT_SIZE : Nat := 256
def SSID_MAX_LEN : Nat := 32
def PWD_MAX_LEN : Nat := 32

inductive Buffer where
  | recvbuf
  deriving DecidableEq

/-- The bytes that a `recvfrom` returns. -/
structure Chunk where
  bytes : List UInt8
  nonempty : bytes ≠ []
  bounded : bytes.length ≤ BUF_SHORT_SIZE

/-- What a round of the loop finds: the mode that it tests, and the bytes that
it receives, if the connection has not ended. -/
structure Round where
  mode : NET_MODE_TYPE
  received : Option Chunk

/-- The buffer after `memset_s` and `recvfrom`. -/
def recvbuf (chunk : Chunk) : Block BUF_SHORT_SIZE :=
  Block.patch (fun _ => 0) 0 chunk.bytes.length fun k => chunk.bytes.getD k 0

/-- What the loop leaves, and the texts that it has parsed; there is no result
while it waits for the client. -/
structure Received where
  result : Option Int
  ssid : Block (SSID_MAX_LEN + 1)
  pwd : Block (PWD_MAX_LEN + 1)
  psr : List Text

section Receiving

variable {Json : Type u}

/-- The loop of `NetCfgGetSocketValue`. -/
def NetCfgGetSocketValue (json : JsonUtil Json) (securec : Securec) :
    List Round → Block (SSID_MAX_LEN + 1) → Block (PWD_MAX_LEN + 1) → Checked Buffer Received
  | [], ssid, pwd => .ok ⟨none, ssid, pwd, []⟩
  | round :: rounds, ssid, pwd =>
      if round.mode ≠ NET_MODE_CONFIG then .ok ⟨some (-1), ssid, pwd, []⟩
      else
        match round.received with
        | none => .ok ⟨some (-1), ssid, pwd, []⟩
        | some chunk => do
            let psr ← (recvbuf chunk).string .recvbuf
            let info := ParseWifiInfo json securec psr ssid pwd
            if info.retval = 0 then pure ⟨some 0, info.ssid, info.pwd, [psr]⟩
            else
              let later ← NetCfgGetSocketValue json securec rounds info.ssid info.pwd
              pure { later with psr := psr :: later.psr }

def serve (json : JsonUtil Json) (securec : Securec) (rounds : List Round) :
    Checked Buffer Received :=
  NetCfgGetSocketValue json securec rounds (fun _ => 0) fun _ => 0

/-- The name and the password of a client that is accepted. -/
def Received.accepted (run : Received) : Option (Text × Text) :=
  if run.result = some 0 then some (run.ssid.content, run.pwd.content) else none

/-- The chunks that are received before the loop is left because of the mode or
the connection. -/
def chunks : List Round → List Chunk
  | [] => []
  | round :: rounds =>
      if round.mode ≠ NET_MODE_CONFIG then []
      else
        match round.received with
        | none => []
        | some chunk => chunk :: chunks rounds

def Chunk.text (chunk : Chunk) : Text := beforeNul chunk.bytes

/-- The first chunk that is a message on its own. -/
def firstMessage (json : JsonUtil Json) (chunks : List Chunk) : Option Message :=
  chunks.findSome? fun chunk => message json chunk.text

/-- The name and the password that are taken over from a message. -/
def Message.taken (received : Message) : Text × Text :=
  (kept (SSID_MAX_LEN + 1) received.wifiName,
    (received.wifiPassword.map (kept (PWD_MAX_LEN + 1))).getD emptyText)

/-- The chunk leaves room for a NUL, or has one. -/
def Chunk.Terminated (chunk : Chunk) : Prop :=
  chunk.bytes.length < BUF_SHORT_SIZE ∨ 0 ∈ chunk.bytes

instance (chunk : Chunk) : Decidable chunk.Terminated := inferInstanceAs (Decidable (_ ∨ _))

/-- A round in which the task is configuring and the client sends a chunk. -/
def Chunk.round (chunk : Chunk) : Round := ⟨NET_MODE_CONFIG, some chunk⟩

end Receiving

/-! ## The text of a chunk -/

theorem getD_beforeNul (bytes : List UInt8) : bytes.getD (strlen (beforeNul bytes)) 0 = 0 := by
  induction bytes with
  | nil => rfl
  | cons byte bytes inductionHypothesis =>
      by_cases zero : byte = 0
      · simp [beforeNul, strlen, zero]
      · have passed : (byte != 0) = true := by simpa using zero
        simpa [beforeNul, strlen, passed] using inductionHypothesis

namespace Chunk

variable {chunk : Chunk}

theorem text_initial : chunk.text.val <+: chunk.bytes := List.takeWhile_prefix _

theorem byteAt_recvbuf {k : Nat} (inside : k < BUF_SHORT_SIZE) :
    (recvbuf chunk).byteAt k = chunk.bytes.getD k 0 := by
  rw [recvbuf, Block.byteAt_patch inside]
  split
  · rfl
  · rename_i behind
    rw [List.getD_eq_default _ _ (by omega)]
    simp [Block.byteAt]

/-- The text ends in the buffer exactly if the chunk is terminated. -/
theorem strlen_text_lt_iff : strlen chunk.text < BUF_SHORT_SIZE ↔ chunk.Terminated := by
  have short : strlen chunk.text ≤ chunk.bytes.length := text_initial.length_le
  have bounded := chunk.bounded
  constructor
  · intro fits
    rcases Nat.lt_or_ge chunk.bytes.length BUF_SHORT_SIZE with room | full
    · exact .inl room
    · right
      have last := getD_beforeNul chunk.bytes
      change chunk.bytes.getD (strlen chunk.text) 0 = 0 at last
      rw [List.getD_eq_getElem _ _ (by omega)] at last
      exact last ▸ List.getElem_mem _
  · rintro (room | nul)
    · omega
    · by_contra full
      have whole : chunk.text.val = chunk.bytes :=
        text_initial.eq_of_length (by change strlen chunk.text = _; omega)
      exact chunk.text.property (whole ▸ nul)

theorem byteAt_strlen_text (terminated : chunk.Terminated) :
    (recvbuf chunk).byteAt (strlen chunk.text) = 0 := by
  rw [byteAt_recvbuf (strlen_text_lt_iff.mpr terminated)]
  exact getD_beforeNul chunk.bytes

theorem content_recvbuf (terminated : chunk.Terminated) :
    (recvbuf chunk).content = chunk.text := by
  have fits := strlen_text_lt_iff.mpr terminated
  refine content_eq fits ?_ (byteAt_strlen_text terminated)
  intro k inside
  have within := lt_of_lt_of_le inside text_initial.length_le
  rw [byteAt_recvbuf (lt_trans inside fits), List.getD_eq_getElem _ _ within]
  exact (text_initial.getElem inside).symm

theorem terminated_of_nul {k : Nat} (inside : k < BUF_SHORT_SIZE)
    (nul : (recvbuf chunk).byteAt k = 0) : chunk.Terminated := by
  rw [byteAt_recvbuf inside] at nul
  rcases Nat.lt_or_ge k chunk.bytes.length with within | behind
  · rw [List.getD_eq_getElem _ _ within] at nul
    exact .inr (nul ▸ List.getElem_mem within)
  · exact .inl (lt_of_le_of_lt behind inside)

/-- What the code reads from the buffer are the bytes of the chunk before its
first NUL; there is no such text if the chunk is not terminated. -/
theorem string_recvbuf_iff {name : Buffer} {text : Text} :
    (recvbuf chunk).string name = .ok text ↔ chunk.Terminated ∧ text = chunk.text := by
  constructor
  · intro read
    obtain ⟨k, -, inside, found⟩ := stops_of_string read
    have terminated := terminated_of_nul inside (by simpa using found)
    rw [string_eq_ok (stops_of_string read), content_recvbuf terminated] at read
    cases read
    exact ⟨terminated, rfl⟩
  · rintro ⟨terminated, rfl⟩
    have nul : Stops (· == 0) (recvbuf chunk) 0 BUF_SHORT_SIZE :=
      ⟨strlen chunk.text, Nat.zero_le _, strlen_text_lt_iff.mpr terminated,
        by rw [byteAt_strlen_text terminated]; rfl⟩
    rw [string_eq_ok nul, content_recvbuf terminated]

end Chunk

/-! ## The loop -/

section Loop

variable {Json : Type u} {json : JsonUtil Json} {securec : Securec} {rounds : List Round}
  {ssid : Block (SSID_MAX_LEN + 1)} {pwd : Block (PWD_MAX_LEN + 1)}

/-- How the loop ends: with the first message among the chunks, or with empty
hands and the buffers as they were. -/
structure Served (json : JsonUtil Json) (securec : Securec) (rounds : List Round)
    (ssid : Block (SSID_MAX_LEN + 1)) (pwd : Block (PWD_MAX_LEN + 1)) (run : Received) : Prop where
  refused : firstMessage json (chunks rounds) = none →
    run.result ≠ some 0 ∧ run.ssid = ssid ∧ run.pwd = pwd
  accepted : ∀ received, firstMessage json (chunks rounds) = some received →
    run.result = some 0 ∧ run.ssid = (securec.strncpy_s ssid received.wifiName).2 ∧
      run.pwd = passwordBuffer securec pwd received.wifiPassword
  parsed : run.psr <+: (chunks rounds).map Chunk.text

theorem served_of_nil {run : Received} (unread : chunks rounds = []) (failed : run.result ≠ some 0)
    (name : run.ssid = ssid) (password : run.pwd = pwd) (unparsed : run.psr = []) :
    Served json securec rounds ssid pwd run := by
  constructor
  · exact fun _ => ⟨failed, name, password⟩
  · intro received found
    rw [unread] at found
    cases found
  · rw [unparsed]
    exact List.nil_prefix

section OneChunk

variable {chunk : Chunk} (terminated : chunk.Terminated)
include terminated

theorem receive_of_message {received : Message} (read : message json chunk.text = some received) :
    NetCfgGetSocketValue json securec (⟨NET_MODE_CONFIG, some chunk⟩ :: rounds) ssid pwd =
      .ok ⟨some 0, (securec.strncpy_s ssid received.wifiName).2,
        passwordBuffer securec pwd received.wifiPassword, [chunk.text]⟩ := by
  have string : (recvbuf chunk).string Buffer.recvbuf = .ok chunk.text :=
    Chunk.string_recvbuf_iff.mpr ⟨terminated, rfl⟩
  simp only [NetCfgGetSocketValue, ne_eq, not_true_eq_false, if_false, string, ok_bind,
    ParseWifiInfo_of_message read, if_true]
  rfl

theorem receive_of_none (unread : message json chunk.text = none) :
    NetCfgGetSocketValue json securec (⟨NET_MODE_CONFIG, some chunk⟩ :: rounds) ssid pwd =
      (NetCfgGetSocketValue json securec rounds ssid pwd >>= fun later =>
        .ok { later with psr := chunk.text :: later.psr }) := by
  have string : (recvbuf chunk).string Buffer.recvbuf = .ok chunk.text :=
    Chunk.string_recvbuf_iff.mpr ⟨terminated, rfl⟩
  simp only [NetCfgGetSocketValue, ne_eq, not_true_eq_false, if_false, string, ok_bind,
    ParseWifiInfo_of_none unread, reduceCtorEq]
  rfl

end OneChunk

theorem exists_served (terminated : ∀ chunk ∈ chunks rounds, chunk.Terminated) :
    ∃ run, NetCfgGetSocketValue json securec rounds ssid pwd = .ok run ∧
      Served json securec rounds ssid pwd run := by
  induction rounds with
  | nil => exact ⟨_, rfl, served_of_nil rfl (by simp) rfl rfl rfl⟩
  | cons round rounds inductionHypothesis =>
      obtain ⟨mode, received⟩ := round
      by_cases config : mode = NET_MODE_CONFIG
      · subst config
        cases received with
        | none => exact ⟨_, rfl, served_of_nil rfl (by simp) rfl rfl rfl⟩
        | some chunk =>
            have listed : chunks (⟨NET_MODE_CONFIG, some chunk⟩ :: rounds) =
                chunk :: chunks rounds := rfl
            rw [listed] at terminated
            have ended := terminated chunk List.mem_cons_self
            cases read : message json chunk.text with
            | none =>
                obtain ⟨run, returned, served⟩ := inductionHypothesis fun later membership =>
                  terminated later (List.mem_cons_of_mem _ membership)
                refine ⟨_, by rw [receive_of_none ended read, returned, ok_bind], ?_⟩
                constructor
                · simpa [firstMessage, listed, read] using served.refused
                · simpa [firstMessage, listed, read] using served.accepted
                · rw [listed, List.map_cons]
                  exact List.cons_prefix_cons.mpr ⟨rfl, served.parsed⟩
            | some received =>
                refine ⟨_, receive_of_message ended read, ?_⟩
                constructor
                · intro nothing
                  simp [firstMessage, listed, read] at nothing
                · intro other found
                  rw [firstMessage, listed, List.findSome?_cons, read] at found
                  cases found
                  exact ⟨rfl, rfl, rfl⟩
                · rw [listed, List.map_cons]
                  exact List.cons_prefix_cons.mpr ⟨rfl, List.nil_prefix⟩
      · refine ⟨_, if_pos config, served_of_nil ?_ (by simp) rfl rfl rfl⟩
        exact if_pos config

/-- Every chunk is a message of its own: the run accepts the first one that is
a message, and parses only texts of single chunks. -/
structure PerChunk (json : JsonUtil Json) (rounds : List Round) (run : Received) : Prop where
  accepted : run.accepted = (firstMessage json (chunks rounds)).map Message.taken
  parsed : run.psr <+: (chunks rounds).map Chunk.text

theorem exists_perChunk (json : JsonUtil Json) (securec : Securec) (rounds : List Round)
    (terminated : ∀ chunk ∈ chunks rounds, chunk.Terminated) :
    ∃ run, serve json securec rounds = .ok run ∧ PerChunk json rounds run := by
  obtain ⟨run, returned, served⟩ := exists_served terminated
  refine ⟨run, returned, ?_, served.parsed⟩
  unfold Received.accepted
  cases first : firstMessage json (chunks rounds) with
  | none => rw [if_neg (served.refused first).1, Option.map_none]
  | some received =>
      obtain ⟨result, name, password⟩ := served.accepted received first
      rw [if_pos result, Option.map_some, name, password, securec.content_strncpy_s, Message.taken]
      cases received.wifiPassword with
      | none => rfl
      | some pw => rw [content_passwordBuffer, Option.map_some, Option.getD_some]

/-- Two runs agree exactly if the first messages of their chunks give the same
name and password, or neither has one. -/
theorem runs_agree_iff_first_messages (json : JsonUtil Json) (securec : Securec)
    {left right : List Round} (leftTerminated : ∀ chunk ∈ chunks left, chunk.Terminated)
    (rightTerminated : ∀ chunk ∈ chunks right, chunk.Terminated) :
    ∃ first second, serve json securec left = .ok first ∧ serve json securec right = .ok second ∧
      PerChunk json left first ∧ PerChunk json right second ∧
      (first.accepted = second.accepted ↔
        (firstMessage json (chunks left)).map Message.taken =
          (firstMessage json (chunks right)).map Message.taken) := by
  obtain ⟨first, returned, leftChunks⟩ := exists_perChunk json securec left leftTerminated
  obtain ⟨second, returnedToo, rightChunks⟩ := exists_perChunk json securec right rightTerminated
  refine ⟨first, second, returned, returnedToo, leftChunks, rightChunks, ?_⟩
  rw [leftChunks.accepted, rightChunks.accepted]

end Loop

/-! ## A message in two chunks -/

/-- A message with the name `a`, which a client sends in one chunk or in two. -/
def shortMessage : Text := configText ⟨[97], by decide⟩

def whole : Chunk := ⟨shortMessage.val, by decide, by decide⟩
def firstPart : Chunk := ⟨shortMessage.val.take 10, by decide, by decide⟩
def secondPart : Chunk := ⟨shortMessage.val.drop 10, by decide, by decide⟩

def shortJson : JsonUtil Bool := JsonUtil.of shortMessage ⟨⟨[97], by decide⟩, none⟩

theorem runs_agree_iff_first_messages_parts :
    ∃ first second, serve shortJson boundedCopy [whole.round] = .ok first ∧
      serve shortJson boundedCopy [firstPart.round, secondPart.round] = .ok second ∧
      PerChunk shortJson [whole.round] first ∧
      PerChunk shortJson [firstPart.round, secondPart.round] second ∧
      (first.accepted = second.accepted ↔
        (firstMessage shortJson (chunks [whole.round])).map Message.taken =
          (firstMessage shortJson (chunks [firstPart.round, secondPart.round])).map
            Message.taken) :=
  runs_agree_iff_first_messages shortJson boundedCopy (by decide) (by decide)

/-- The message is accepted in one chunk and not in two. -/
theorem runs_depend_on_chunks :
    [whole].flatMap Chunk.bytes = [firstPart, secondPart].flatMap Chunk.bytes ∧
      ∃ first second, serve shortJson boundedCopy [whole.round] = .ok first ∧
        serve shortJson boundedCopy [firstPart.round, secondPart.round] = .ok second ∧
        first.accepted ≠ second.accepted := by
  obtain ⟨first, returned, single⟩ :=
    exists_perChunk shortJson boundedCopy [whole.round] (by decide)
  obtain ⟨second, returnedToo, double⟩ :=
    exists_perChunk shortJson boundedCopy [firstPart.round, secondPart.round] (by decide)
  refine ⟨by decide, first, second, returned, returnedToo, fun same => ?_⟩
  rw [single.accepted, double.accepted] at same
  have read : message shortJson whole.text = some ⟨⟨[97], by decide⟩, none⟩ := message_of _ _
  have unread : message shortJson firstPart.text = none := message_of_ne (by decide)
  have unreadToo : message shortJson secondPart.text = none := message_of_ne (by decide)
  simp [firstMessage, chunks, Chunk.round, read, unread, unreadToo] at same

/-! ## The task -/

section Task

variable {Json : Type u} {json : JsonUtil Json} {cfg : NetCfg} {chunk : Chunk}
  {stream : List Chunk}

/-- What the task waits for while it receives a chunk. -/
def Chunk.answers (json : JsonUtil Json) (chunk : Chunk) : List Answer :=
  [.proceed, .recvfrom (some (message json chunk.text).isSome)]

theorem exec_answers (here : cfg.pc = .NetCfgGetSocketValue)
    (config : cfg.manager.mode = NET_MODE_CONFIG) :
    task.exec cfg (chunk.answers json) =
      some ({ cfg with
        pc := if (message json chunk.text).isSome then .notify .connectting
          else .NetCfgGetSocketValue }, []) := by
  simp [Chunk.answers, Machine.exec, task, taskStep, NetConfig.NetCfgGetSocketValue, here, config]

theorem exec_of_no_message (here : cfg.pc = .NetCfgGetSocketValue)
    (config : cfg.manager.mode = NET_MODE_CONFIG) (unread : firstMessage json stream = none) :
    task.exec cfg (stream.flatMap (Chunk.answers json)) = some (cfg, []) := by
  induction stream with
  | nil => rfl
  | cons chunk stream inductionHypothesis =>
      rw [firstMessage, List.findSome?_cons] at unread
      cases read : message json chunk.text with
      | some received =>
          rw [read] at unread
          cases unread
      | none =>
          rw [read] at unread
          have stays : { cfg with pc := .NetCfgGetSocketValue } = cfg := by rw [← here]
          rw [List.flatMap_cons, Machine.exec_append, exec_answers here config, read]
          simp only [Option.isSome_none, Bool.false_eq_true, if_false, stays, Option.bind_some,
            inductionHypothesis unread]
          rfl

/-- The task of the other modules agrees with the loop: it waits while no chunk is a message, and
the first chunk that is one takes it on to the connection. -/
theorem exec_stream (here : cfg.pc = .NetCfgGetSocketValue)
    (config : cfg.manager.mode = NET_MODE_CONFIG) (stream : List Chunk) :
    (firstMessage json stream = none → task.exec cfg (stream.flatMap (Chunk.answers json)) =
      some (cfg, [])) ∧
    ∀ received, firstMessage json stream = some received → ∃ before chunk after,
      stream = before ++ chunk :: after ∧ message json chunk.text = some received ∧
      task.exec cfg ((before ++ [chunk]).flatMap (Chunk.answers json)) =
        some ({ cfg with pc := .notify .connectting }, []) := by
  refine ⟨exec_of_no_message here config, fun received found => ?_⟩
  obtain ⟨before, chunk, after, split, read, unread⟩ := List.findSome?_eq_some_iff.mp found
  refine ⟨before, chunk, after, split, read, ?_⟩
  have waits := exec_of_no_message here config (List.findSome?_eq_none_iff.mpr unread)
  rw [List.flatMap_append, Machine.exec_append, waits, List.flatMap_singleton, Option.bind_some,
    exec_answers here config, read]
  rfl

end Task

end WifiIot.Credentials
