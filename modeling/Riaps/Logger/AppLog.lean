import Mathlib.Data.List.ReduceOption
import Riaps.Foundation.Dict
import Riaps.Foundation.Interleaving
import Riaps.Foundation.Runs
import Riaps.Foundation.Utf8
import Riaps.Logger.PlatformLog

/-!
# The server of the applications' log

Each client of this server has a thread, in which `handle` reads lines and queues them, and one more
thread takes what is queued and then gives it to the driver, which writes it into a file of the client's
node. The threads take turns in any order. A handler ends at a line that is blank or that is not
UTF-8, and the thread of the queue at the `'#'` that the server puts there when it shuts down, or at
a file that cannot be opened.

The file of a node has the lines of the node's clients, each client's from the first on, in order and
without a gap; and all of them if the handler has ended and the thread of the queue waits at an empty one,
or if the handler ended before the server was shut down (`logged_run`).
-/

namespace Riaps.Logger

open Riaps.Foundation

universe u

/-! ### Lines -/

/-- White space, for `bytes.strip`. -/
def isSpaceByte (b : UInt8) : Bool := b = 32 || (9 ≤ b && b ≤ 13)

/-- `data.strip()`. -/
def stripBytes (data : List UInt8) : List UInt8 :=
  ((data.dropWhile isSpaceByte).reverse.dropWhile isSpaceByte).reverse

/-- `rfile.readline()`: the bytes through the first newline, and what comes after them. -/
def readline : List UInt8 → List UInt8 × List UInt8
  | [] => ([], [])
  | b :: rfile =>
    if b = 10 then ([b], rfile)
    else
      let (line, rest) := readline rfile
      (b :: line, rest)

/-- What is queued for a line, if the handler goes on. -/
def lineRecord (line : List UInt8) : Option Text :=
  let dataBytes := stripBytes line
  if dataBytes = [] then none else decodeUtf8 dataBytes

/-- The records of a stream: its lines up to the first that is blank or that is not UTF-8. -/
def lineRecords (stream : List UInt8) : List Text :=
  (((stream.splitOn 10).map lineRecord).takeWhile Option.isSome).reduceOption

theorem stripBytes_concat (line : List UInt8) : stripBytes (line ++ [10]) = stripBytes line := by
  rw [stripBytes, stripBytes, List.dropWhile_append]
  split
  · next h =>
    rw [List.isEmpty_iff.mp h]
    rfl
  · rw [List.reverse_append]
    rfl

theorem lineRecord_concat (line : List UInt8) : lineRecord (line ++ [10]) = lineRecord line := by
  rw [lineRecord, stripBytes_concat]
  rfl

theorem readline_append_cons {line : List UInt8} (h : (10 : UInt8) ∉ line) (rest : List UInt8) :
    readline (line ++ 10 :: rest) = (line ++ [10], rest) := by
  induction line with
  | nil => rfl
  | cons b line ih =>
    rw [List.mem_cons, not_or] at h
    rw [List.cons_append, readline, if_neg (Ne.symm h.1), ih h.2]
    rfl

theorem readline_of_notMem {line : List UInt8} (h : (10 : UInt8) ∉ line) : readline line = (line, []) := by
  induction line with
  | nil => rfl
  | cons b line ih =>
    rw [List.mem_cons, not_or] at h
    rw [readline, if_neg (Ne.symm h.1), ih h.2]

/-- The records of what a line is read from. -/
theorem lineRecords_eq (stream : List UInt8) :
    lineRecords stream =
      match lineRecord (readline stream).1 with
      | none => []
      | some data => data :: lineRecords (readline stream).2 := by
  by_cases hnl : (10 : UInt8) ∈ stream
  · obtain ⟨line, rest, rfl, hline⟩ := List.eq_append_cons_of_mem hnl
    rw [readline_append_cons hline, lineRecord_concat, lineRecords,
      List.splitOn_append_cons_self_of_not_mem hline, List.map_cons, List.takeWhile_cons]
    cases lineRecord line <;> rfl
  · rw [readline_of_notMem hnl, lineRecords, List.splitOn_eq_singleton hnl, List.map_cons, List.takeWhile_cons]
    cases lineRecord stream <;> rfl

theorem notMem_of_mem_splitOn {stream line : List UInt8} (h : line ∈ stream.splitOn 10) : (10 : UInt8) ∉ line := by
  induction stream generalizing line with
  | nil =>
    rw [List.splitOn_nil, List.mem_singleton] at h
    rw [h]
    exact List.not_mem_nil
  | cons b stream ih =>
    rw [List.splitOn_cons_eq_if_modifyHead] at h
    split_ifs at h with hb
    · rcases List.mem_cons.mp h with rfl | h
      · exact List.not_mem_nil
      · exact ih h
    · obtain ⟨first, lines, hlines⟩ := List.exists_cons_of_ne_nil (List.splitOn_ne_nil 10 stream)
      rw [hlines, List.modifyHead_cons, List.mem_cons] at h
      rw [hlines] at ih
      rcases h with rfl | h
      · rw [List.mem_cons, not_or]
        exact ⟨fun he => hb (beq_iff_eq.mpr he.symm), ih List.mem_cons_self⟩
      · exact ih (List.mem_cons_of_mem _ h)

theorem subset_of_stripBytes (data : List UInt8) : stripBytes data ⊆ data := by
  intro b hb
  have hb' := (List.dropWhile_suffix _).subset (List.mem_reverse.mp hb)
  exact (List.dropWhile_suffix _).subset (List.mem_reverse.mp hb')

/-- A record is one line. -/
theorem newline_notMem_of_mem_lineRecords {stream : List UInt8} {data : Text} (h : data ∈ lineRecords stream) :
    '\n' ∉ data := by
  rw [lineRecords, List.reduceOption_mem_iff] at h
  obtain ⟨line, hline, hdata⟩ := List.mem_map.mp ((List.takeWhile_prefix _).subset h)
  simp only [lineRecord] at hdata
  split_ifs at hdata
  refine notMem_decodeUtf8 (c := '\n') (b := 10) (by decide) (fun hmem => ?_) hdata
  exact notMem_of_mem_splitOn hline (subset_of_stripBytes line hmem)

/-! ### The driver -/

/-- The driver that writes files. -/
structure ServerLogDriver where
  sessionName : Text
  /-- By the name of a node, the file that is open for it. -/
  nodes : Dict Text Text
  /-- What is in the files. -/
  files : Text → Text

namespace ServerLogDriver

variable (d : ServerLogDriver)

/-- `f"server_logs/{node_name}_{self.session_name}.log"`. -/
def path (nodeName : Text) : Text := lit "server_logs/" ++ nodeName ++ (lit "_" ++ d.sessionName ++ lit ".log")

/-- `f"{data}\n"`. -/
def line (data : Text) : Text := data ++ ['\n']

/-- The file of a node is opened, to append to it, at the node's first message. -/
def openFor (nodeName : Text) (opens : Bool) : Option ServerLogDriver :=
  if nodeName ∈ d.nodes then some d
  else if opens then some { d with nodes := d.nodes.set nodeName (d.path nodeName) }
  else none

/-- `handle`; an exception is `none`. `msg_count` stays 0, so that each line is flushed. -/
def handle (msg : LogMsg) (opens : Bool) : Option ServerLogDriver := do
  let d ← d.openFor msg.client opens
  let f ← d.nodes.get? msg.client
  some { d with files := Function.update d.files f (d.files f ++ line msg.data) }

theorem path_injective : Function.Injective d.path := fun _ _ h =>
  List.append_cancel_left (List.append_cancel_right h)

/-- The files that are open are those of the nodes. -/
def Opened : Prop := ∀ node f, d.nodes.get? node = some f → f = d.path node

variable {d} {d' : ServerLogDriver} {msg : LogMsg} {opens : Bool}

theorem openFor_spec {node : Text} (hd : d.Opened) (h : d.openFor node opens = some d') :
    d'.sessionName = d.sessionName ∧ d'.files = d.files ∧ d'.Opened := by
  rw [openFor] at h
  split_ifs at h
  · obtain rfl := Option.some.inj h
    exact ⟨rfl, rfl, hd⟩
  · obtain rfl := Option.some.inj h
    refine ⟨rfl, rfl, fun n f hf => ?_⟩
    rcases Dict.get?_set_eq_some.mp hf with ⟨rfl, rfl⟩ | ⟨-, hf⟩
    · rfl
    · exact hd n f hf

/-- A message goes to the end of the file of its client. -/
theorem handle_spec (hd : d.Opened) (h : d.handle msg opens = some d') :
    d'.sessionName = d.sessionName ∧ d'.Opened ∧
      d'.files = Function.update d.files (d.path msg.client) (d.files (d.path msg.client) ++ line msg.data) := by
  obtain ⟨e, he, f, hf, hd'⟩ := by simpa only [handle, Option.bind_eq_bind, Option.bind_eq_some_iff] using h
  obtain rfl := Option.some.inj hd'
  obtain ⟨hsession, hfiles, hopened⟩ := openFor_spec hd he
  obtain rfl := hopened _ f hf
  have hpath : e.path = d.path := by
    funext n
    rw [path, path, hsession]
  refine ⟨hsession, fun n f hn => hopened n f hn, ?_⟩
  rw [← hpath, ← hfiles]

end ServerLogDriver

/-! ### The server -/

/-- What is in the queue: a message, or the `'#'` that stops its thread. -/
inductive Item where
  | msg (msg : LogMsg)
  | stop

/-- The thread of the queue. -/
inductive HandlerThread where
  /-- It waits for what is in the queue. -/
  | running
  /-- It has a message from the queue, for the driver. -/
  | handling (msg : LogMsg)
  /-- It has left its loop at the `'#'`. -/
  | stopped
  /-- It has left its loop at an exception. -/
  | failed
  deriving DecidableEq

/-- The server: for each client its address, what its handler has not read, and whether its handler has ended. -/
structure AppLogServer (ι : Type u) where
  clientAddress : ι → Text
  rfile : ι → List UInt8
  ended : ι → Bool
  q : List Item
  thread : HandlerThread
  driver : ServerLogDriver

/-- Whose turn it is. -/
inductive Turn (ι : Type u) where
  /-- A round of the handler of a client. -/
  | handle (i : ι)
  /-- The thread of the queue takes what is in it. -/
  | get
  /-- It gives the driver what it has taken; `opens` is whether a file that is opened can be opened. -/
  | serve (opens : Bool)
  /-- The server shuts down. -/
  | stop
  deriving DecidableEq

namespace AppLogServer

variable {ι : Type u} [DecidableEq ι]

/-- A server that has no client yet. -/
def start (clientAddress : ι → Text) (stream : ι → List UInt8) (sessionName : Text) (files : Text → Text) :
    AppLogServer ι :=
  ⟨clientAddress, stream, fun _ => false, [], .running, ⟨sessionName, .empty, files⟩⟩

/-- `handle_log_record`. -/
def handleLogRecord (s : AppLogServer ι) (i : ι) (data : Text) : AppLogServer ι :=
  { s with q := s.q ++ [.msg ⟨s.clientAddress i, data⟩] }

/-- A round of `handle`. -/
def handle (s : AppLogServer ι) (i : ι) : AppLogServer ι :=
  if s.ended i then s
  else
    let (line, rest) := readline (s.rfile i)
    let s := { s with rfile := Function.update s.rfile i rest }
    match lineRecord line with
    | none => { s with ended := Function.update s.ended i true }
    | some data => s.handleLogRecord i data

/-- `handler_thread`, through `q.get()` and what is done at the `'#'`. -/
def handlerThreadGet (s : AppLogServer ι) : AppLogServer ι :=
  match s.thread, s.q with
  | .running, .stop :: q => { s with q := q, thread := .stopped }
  | .running, .msg msg :: q => { s with q := q, thread := .handling msg }
  | _, _ => s

/-- `handler_thread`, the rest of the round. -/
def handlerThread (s : AppLogServer ι) (opens : Bool) : AppLogServer ι :=
  match s.thread with
  | .handling msg =>
    match s.driver.handle msg opens with
    | none => { s with thread := .failed }
    | some driver => { s with driver := driver, thread := .running }
  | _ => s

/-- A turn. -/
def step (s : AppLogServer ι) : Turn ι → AppLogServer ι
  | .handle i => s.handle i
  | .get => s.handlerThreadGet
  | .serve opens => s.handlerThread opens
  | .stop => { s with q := s.q ++ [.stop] }

/-- What a turn puts into the queue, with the client that it is from; `none` is the `'#'`. -/
def puts (s : AppLogServer ι) : Turn ι → List (Option (ι × Text))
  | .handle i => if s.ended i then [] else ((lineRecord (readline (s.rfile i)).1).map fun data => some (i, data)).toList
  | .get | .serve _ => []
  | .stop => [none]

/-! ### What a turn does -/

variable {s s₀ : AppLogServer ι} {i : ι} {queued : List (Option (ι × Text))} {served : List (ι × Text)}

/-- What the handler of a client has yet to queue. -/
def left (s : AppLogServer ι) (i : ι) : List Text := if s.ended i then [] else lineRecords (s.rfile i)

/-- What of it is in the queue. -/
def item (s : AppLogServer ι) : Option (ι × Text) → Item
  | none => .stop
  | some (i, data) => .msg ⟨s.clientAddress i, data⟩

/-- A round of a handler that has not ended. -/
theorem handle_eq (hended : ¬s.ended i) :
    s.handle i =
      match lineRecord (readline (s.rfile i)).1 with
      | none => { s with
          rfile := Function.update s.rfile i (readline (s.rfile i)).2, ended := Function.update s.ended i true }
      | some data => { s with
          rfile := Function.update s.rfile i (readline (s.rfile i)).2, q := s.q ++ [s.item (some (i, data))] } := by
  rw [handle, if_neg hended]
  rfl

/-- What one round of a handler does: it queues the first record that it has left, if it has one. -/
theorem handle_cases (s : AppLogServer ι) (i : ι) :
    (s.puts (.handle i) = [] ∧ (s.handle i).left = s.left ∧ (s.handle i).q = s.q) ∨
    ∃ data, s.puts (.handle i) = [some (i, data)] ∧ s.left i = data :: (s.handle i).left i ∧
      (∀ j, j ≠ i → (s.handle i).left j = s.left j) ∧ (s.handle i).q = s.q ++ [s.item (some (i, data))] := by
  by_cases hended : s.ended i
  · left
    rw [handle, if_pos hended, puts, if_pos hended]
    exact ⟨rfl, rfl, rfl⟩
  · have hleft : s.left i = lineRecords (s.rfile i) := if_neg hended
    rw [lineRecords_eq] at hleft
    rw [handle_eq hended, puts, if_neg hended]
    cases hrecord : lineRecord (readline (s.rfile i)).1 with
    | none =>
      left
      rw [hrecord] at hleft
      refine ⟨rfl, ?_, rfl⟩
      funext j
      by_cases hj : j = i
      · subst hj
        rw [hleft]
        exact if_pos (Function.update_self ..)
      · simp only [left, Function.update_of_ne hj]
    | some data =>
      right
      rw [hrecord] at hleft
      refine ⟨data, rfl, ?_, fun j hj => ?_, rfl⟩
      · rw [hleft]
        simp only [left, Function.update_self, if_neg hended]
      · simp only [left, Function.update_of_ne hj]

/-- No round of a handler touches anything else. -/
theorem handle_frame (s : AppLogServer ι) (i : ι) :
    (s.handle i).clientAddress = s.clientAddress ∧ (s.handle i).thread = s.thread ∧ (s.handle i).driver = s.driver := by
  by_cases hended : s.ended i
  · rw [handle, if_pos hended]
    exact ⟨rfl, rfl, rfl⟩
  · rw [handle_eq hended]
    cases lineRecord (readline (s.rfile i)).1 <;> exact ⟨rfl, rfl, rfl⟩

/-! ### Runs -/

/-- What has been written for a node. -/
def written (s : AppLogServer ι) (served : List (ι × Text)) (node : Text) : Text :=
  (served.filter fun p => s.clientAddress p.1 = node).flatMap fun p => ServerLogDriver.line p.2

/-- What has been served of what has been put, and what of it is in the queue. -/
def Pending (s : AppLogServer ι) (queued : List (Option (ι × Text))) (served : List (ι × Text)) : Prop :=
  match s.thread with
  | .running => ∃ waiting, queued = served.map some ++ waiting ∧ s.q = waiting.map s.item
  | .handling msg => ∃ m waiting, queued = served.map some ++ some m :: waiting ∧ .msg msg = s.item (some m) ∧
      s.q = waiting.map s.item
  | .stopped => ∃ rest, queued = served.map some ++ none :: rest
  | .failed => served.map some <+: queued

/-- The invariant: the queue has what has been put and not served, and the files what has been served. -/
structure Logged (s₀ s : AppLogServer ι) (queued : List (Option (ι × Text))) : Prop where
  client : s.clientAddress = s₀.clientAddress
  session : s.driver.sessionName = s₀.driver.sessionName
  opened : s.driver.Opened
  given : Interleaves s₀.left queued.reduceOption s.left
  served : ∃ served, s.Pending queued served ∧
    ∀ node, s.driver.files (s.driver.path node) = s₀.driver.files (s.driver.path node) ++ s.written served node

omit [DecidableEq ι] in
theorem written_concat (m : ι × Text) (node : Text) :
    s.written (served ++ [m]) node =
      s.written served node ++ if s.clientAddress m.1 = node then ServerLogDriver.line m.2 else [] := by
  rw [written, written, List.filter_append, List.flatMap_append]
  split_ifs with h
  · simp [h]
  · simp [h]

omit [DecidableEq ι] in
theorem item_congr {s s' : AppLogServer ι} (h : s'.clientAddress = s.clientAddress) : s'.item = s.item := by
  funext m
  cases m with
  | none => rfl
  | some m => rw [item, item, h]

omit [DecidableEq ι] in
/-- What is put goes to the end of the queue. -/
theorem Pending.put {s' : AppLogServer ι} (h : s.Pending queued served) (hclient : s'.clientAddress = s.clientAddress)
    (hthread : s'.thread = s.thread) {new : List (Option (ι × Text))} (hq : s'.q = s.q ++ new.map s.item) :
    s'.Pending (queued ++ new) served := by
  rw [Pending] at h ⊢
  rw [hthread]
  cases hs : s.thread with
  | running =>
    rw [hs] at h
    obtain ⟨waiting, rfl, hwaiting⟩ := h
    refine ⟨waiting ++ new, List.append_assoc .., ?_⟩
    rw [hq, hwaiting, item_congr hclient, List.map_append]
  | handling msg =>
    rw [hs] at h
    obtain ⟨m, waiting, rfl, hmsg, hwaiting⟩ := h
    refine ⟨m, waiting ++ new, List.append_assoc .., ?_, ?_⟩
    · rw [hmsg, item_congr hclient]
    · rw [hq, hwaiting, item_congr hclient, List.map_append]
  | stopped =>
    rw [hs] at h
    obtain ⟨rest, rfl⟩ := h
    exact ⟨rest ++ new, List.append_assoc ..⟩
  | failed =>
    rw [hs] at h
    exact List.IsPrefix.trans h (List.prefix_append _ _)

/-- A round of a handler keeps it, -/
theorem Logged.handle (h : Logged s₀ s queued) (i : ι) : Logged s₀ (s.handle i) (queued ++ s.puts (.handle i)) := by
  obtain ⟨served, hpending, hfiles⟩ := h.served
  obtain ⟨hclient, hthread, hdriver⟩ := handle_frame s i
  have hwritten : (s.handle i).written = s.written := by
    funext l node
    rw [written, written, hclient]
  refine ⟨hclient.trans h.client, hdriver ▸ h.session, hdriver ▸ h.opened, ?_, served, ?_, ?_⟩
  · rcases handle_cases s i with ⟨hputs, hleft, -⟩ | ⟨data, hputs, hleft, hother, -⟩
    · rw [hputs, hleft, List.append_nil]
      exact h.given
    · rw [hputs, List.reduceOption_append]
      exact h.given.give hleft hother
  · refine hpending.put hclient hthread ?_
    rcases handle_cases s i with ⟨hputs, -, hq⟩ | ⟨data, hputs, -, -, hq⟩
    · rw [hputs, hq, List.map_nil, List.append_nil]
    · rw [hputs, hq]
      rfl
  · rw [hdriver, hwritten]
    exact hfiles

/-- the server's shutting down, -/
theorem Logged.stop (h : Logged s₀ s queued) : Logged s₀ (s.step .stop) (queued ++ s.puts .stop) := by
  obtain ⟨served, hpending, hfiles⟩ := h.served
  have hput : (s.step .stop).Pending (queued ++ [none]) served := by
    refine hpending.put ?_ ?_ ?_ <;> rfl
  refine ⟨h.client, h.session, h.opened, ?_, served, hput, hfiles⟩
  rw [puts, List.reduceOption_append]
  exact (List.append_nil queued.reduceOption).symm ▸ h.given

/-- the taking of what is in the queue, -/
theorem Logged.get (h : Logged s₀ s queued) : Logged s₀ s.handlerThreadGet queued := by
  obtain ⟨served, hpending, hfiles⟩ := h.served
  rw [Pending] at hpending
  rw [handlerThreadGet]
  split
  · next q hthread hq =>
    rw [hthread] at hpending
    obtain ⟨waiting, rfl, hwaiting⟩ := hpending
    rw [hq] at hwaiting
    cases waiting with
    | nil => cases hwaiting
    | cons m waiting =>
      cases m with
      | some m => cases (List.cons.inj hwaiting).1
      | none => exact ⟨h.client, h.session, h.opened, h.given, served, ⟨waiting, rfl⟩, hfiles⟩
  · next msg q hthread hq =>
    rw [hthread] at hpending
    obtain ⟨waiting, rfl, hwaiting⟩ := hpending
    rw [hq] at hwaiting
    cases waiting with
    | nil => cases hwaiting
    | cons m waiting =>
      cases m with
      | none => cases (List.cons.inj hwaiting).1
      | some m =>
        obtain ⟨hmsg, hrest⟩ := List.cons.inj hwaiting
        exact ⟨h.client, h.session, h.opened, h.given, served, ⟨m, waiting, rfl, hmsg, hrest⟩, hfiles⟩
  · exact ⟨h.client, h.session, h.opened, h.given, served, hpending, hfiles⟩

/-- and the writing of what was taken. -/
theorem Logged.serve (h : Logged s₀ s queued) (opens : Bool) : Logged s₀ (s.handlerThread opens) queued := by
  obtain ⟨served, hpending, hfiles⟩ := h.served
  rw [Pending] at hpending
  rw [handlerThread]
  split
  · next msg hthread =>
    rw [hthread] at hpending
    obtain ⟨m, waiting, rfl, hmsg, hwaiting⟩ := hpending
    obtain rfl := Item.msg.inj hmsg
    split
    · exact ⟨h.client, h.session, h.opened, h.given, served, List.prefix_append _ _, hfiles⟩
    · next driver hdriver =>
      obtain ⟨hsession, hopened, hdriver⟩ := ServerLogDriver.handle_spec h.opened hdriver
      refine ⟨h.client, hsession.trans h.session, hopened, h.given, served ++ [m], ⟨waiting, ?_, hwaiting⟩,
        fun node => ?_⟩
      · rw [List.map_append, List.append_assoc]
        rfl
      · have hpath : driver.path = s.driver.path := by
          funext n
          rw [ServerLogDriver.path, ServerLogDriver.path, hsession]
        have hwritten : ({ s with driver := driver, thread := .running } : AppLogServer ι).written = s.written := rfl
        rw [hwritten, written_concat, hpath, hdriver]
        by_cases hnode : s.clientAddress m.1 = node
        · subst hnode
          rw [Function.update_self, if_pos rfl, hfiles, List.append_assoc]
        · rw [Function.update_of_ne (fun he => hnode (s.driver.path_injective he).symm), if_neg hnode,
            List.append_nil]
          exact hfiles node
  · exact ⟨h.client, h.session, h.opened, h.given, served, hpending, hfiles⟩

theorem Logged.turn (h : Logged s₀ s queued) (t : Turn ι) : Logged s₀ (s.step t) (queued ++ s.puts t) := by
  cases t with
  | handle i => exact h.handle i
  | get => exact (List.append_nil queued).symm ▸ h.get
  | serve opens => exact (List.append_nil queued).symm ▸ h.serve opens
  | stop => exact h.stop

/-- What is put in a run. -/
abbrev allPuts (s : AppLogServer ι) (turns : List (Turn ι)) : List (Option (ι × Text)) := collect step puts s turns

theorem Logged.turns (h : Logged s₀ s queued) (turns : List (Turn ι)) :
    Logged s₀ (run step s turns) (queued ++ s.allPuts turns) := by
  induction turns generalizing s queued with
  | nil => exact (List.append_nil queued).symm ▸ h
  | cons t turns ih =>
    have hrun := ih (h.turn t)
    rw [List.append_assoc] at hrun
    exact hrun

variable {clientAddress : ι → Text} {stream : ι → List UInt8} {sessionName : Text} {files : Text → Text}

theorem logged_start :
    Logged (start clientAddress stream sessionName files) (start clientAddress stream sessionName files) [] := by
  refine ⟨rfl, rfl, nofun, Interleaves.nil, [], ⟨[], rfl, rfl⟩, fun node => ?_⟩
  exact (List.append_nil _).symm

/-- Only the shutting down puts the `'#'`. -/
theorem none_notMem_allPuts {turns : List (Turn ι)} (h : .stop ∉ turns) : none ∉ s.allPuts turns := by
  induction turns generalizing s with
  | nil => nofun
  | cons t turns ih =>
    rw [List.mem_cons, not_or] at h
    rw [allPuts, collect_cons, List.mem_append, not_or]
    refine ⟨?_, ih h.2⟩
    cases t with
    | handle i =>
      rcases handle_cases s i with ⟨hputs, -⟩ | ⟨data, hputs, -⟩
      · rw [hputs]
        nofun
      · rw [hputs]
        simp
    | get | serve opens => nofun
    | stop => exact absurd rfl h.1

omit [DecidableEq ι] in
/-- What has been served is of what has been put, and has been put by then. -/
theorem Pending.prefix_queued (h : s.Pending queued served) : served.map some <+: queued := by
  rw [Pending] at h
  split at h
  · obtain ⟨waiting, rfl, -⟩ := h
    exact List.prefix_append _ _
  · obtain ⟨m, waiting, rfl, -⟩ := h
    exact List.prefix_append _ _
  · obtain ⟨rest, rfl⟩ := h
    exact List.prefix_append _ _
  · exact h

omit [DecidableEq ι] in
theorem reduceOption_map_some (l : List (ι × Text)) : (l.map some).reduceOption = l := by
  rw [List.reduceOption, List.filterMap_map]
  exact List.filterMap_some

/-- **The log of the applications**: in every run the file of each node has, after what was in it, one line for
each record in a sequence of records of the node's clients. Of each client these are first records of its stream, in
order; and all of them if its handler has ended and the thread of the queue waits at an empty one, or if it had ended
when the server was shut down and the thread of the queue has stopped. -/
theorem logged_run (clientAddress : ι → Text) (stream : ι → List UInt8) (sessionName : Text) (files : Text → Text)
    (turns : List (Turn ι)) :
    let s := start clientAddress stream sessionName files
    let s' := run step s turns
    ∃ served : List (ι × Text),
      (∀ node, s'.driver.files (s.driver.path node) = files (s.driver.path node) ++ s.written served node) ∧
      (∀ p ∈ served, '\n' ∉ p.2) ∧
      (∀ i, ofSource i served <+: lineRecords (stream i)) ∧
      (s'.thread = .running → s'.q = [] → ∀ i, s'.ended i → ofSource i served = lineRecords (stream i)) ∧
      ∀ before after, turns = before ++ .stop :: after → .stop ∉ before → s'.thread = .stopped →
        ∀ i, (run step s before).ended i → ofSource i served = lineRecords (stream i) := by
  intro s s'
  have h : Logged s s' (s.allPuts turns) := logged_start.turns turns
  obtain ⟨served, hpending, hfiles⟩ := h.served
  have hpath : s'.driver.path = s.driver.path := by
    funext node
    rw [ServerLogDriver.path, ServerLogDriver.path, h.session]
  have hwritten : s'.written = s.written := by
    funext l node
    rw [written, written, h.client]
  rw [hpath, hwritten] at hfiles
  have hinitial : ∀ i, ofSource i served <+: lineRecords (stream i) := by
    intro i
    have hserved := hpending.prefix_queued.reduceOption
    rw [reduceOption_map_some] at hserved
    exact (ofSource_mono hserved i).trans (h.given.prefix_whole i)
  refine ⟨served, hfiles, fun p hp => ?_, hinitial, fun hthread hq i hended => ?_, ?_⟩
  · refine newline_notMem_of_mem_lineRecords ((hinitial p.1).subset ?_)
    exact mem_ofSource.mpr hp
  · rw [Pending, hthread] at hpending
    obtain ⟨waiting, hqueued, hwaiting⟩ := hpending
    rw [hq, eq_comm, List.map_eq_nil_iff] at hwaiting
    have hgiven := h.given.all (i := i) (if_pos hended)
    rw [hqueued, hwaiting, List.append_nil, reduceOption_map_some] at hgiven
    exact hgiven
  · rintro before after rfl hbefore hthread i hended
    rw [Pending, hthread] at hpending
    obtain ⟨rest, hqueued⟩ := hpending
    have hpre : Logged s (run step s before) (s.allPuts before) := logged_start.turns before
    -- what was put before the `'#'` is what has been served
    have hput : s.allPuts before = served.map some := by
      rw [allPuts, collect_append, collect_cons] at hqueued
      have hserved : (none : Option (ι × Text)) ∉ served.map some := by simp
      have hsplit := congrArg (List.splitOn none) hqueued
      rw [puts, List.singleton_append, List.splitOn_append_cons_self_of_not_mem (none_notMem_allPuts hbefore),
        List.splitOn_append_cons_self_of_not_mem hserved] at hsplit
      exact (List.cons.inj hsplit).1
    have hgiven := hpre.given.all (i := i) (if_pos hended)
    rw [hput, reduceOption_map_some] at hgiven
    exact hgiven

/-- A client that has sent `"a \n"` and `"b"`; the server is shut down while one of its records is in the queue. -/
example :
    let s := start (fun _ : Unit => ['p']) (fun _ => [97, 32, 10, 98]) ['s'] fun _ => []
    (run step s [.handle (), .get, .handle (), .serve true, .handle (), .stop, .get, .serve true, .get]).driver.files
      (s.driver.path ['p']) = ['a', '\n', 'b', '\n'] := by
  decide +kernel

end AppLogServer

end Riaps.Logger
