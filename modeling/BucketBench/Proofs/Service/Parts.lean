import BucketBench.Proofs.Service.Upload
import Mathlib.Algebra.Order.Floor.Div

set_option autoImplicit false

/-!
# Sending every byte once

A source is sent whole or in parts. The parts cut it without a gap and without an overlap, they are sent in order up to
the first failure, and an upload is completed only when the service took all of them: `upload_sends_in_order`.
-/

namespace BucketBench

/-! ## Cutting a source into parts -/

/-- Parts that cut a source of some size, in order and without a gap or an overlap. -/
structure Tiles (size : Nat) (parts : List Stretch) : Prop where
  count : parts.length = size ⌈/⌉ partSize
  place : ∀ (i : Nat) (s : Stretch), parts[i]? = some s →
    s.number = i + 1 ∧ s.offset = i * partSize ∧ s.offset + s.length = min ((i + 1) * partSize) size
  nonempty : ∀ s ∈ parts, 0 < s.length
  covers : parts.flatMap (fun s => List.range' s.offset s.length) = List.range size

theorem partCount_eq_ceilDiv (size : Nat) : partCount size = size ⌈/⌉ partSize :=
  (Nat.ceilDiv_eq_add_pred_div size partSize).symm

theorem length_stretches (size : Nat) : (stretches size).length = partCount size := by
  rw [stretches, List.length_map, List.length_range]

theorem le_partCount_mul (size : Nat) : size ≤ partCount size * partSize := by
  have beyond := (lt_partCount_iff size (partCount size)).not.1 (Nat.lt_irrefl _)
  omega

theorem numbers_stretches (size : Nat) : (stretches size).map (·.number) = List.range' 1 (partCount size) := by
  rw [stretches, List.map_map, List.range'_eq_map_range]
  refine List.map_congr_left fun i _ => ?_
  simp only [Function.comp_apply, stretch]
  omega

theorem number_le_of_mem {size : Nat} {s : Stretch} (h : s ∈ stretches size) : s.number ≤ partCount size := by
  obtain ⟨i, hi, rfl⟩ := List.mem_map.1 h
  exact List.mem_range.1 hi

/-- What the first parts hold of a list is its beginning, and nothing of it twice. -/
theorem flatMap_take_stretches {α : Type} (l : List α) (k : Nat) :
    ((stretches l.length).take k).flatMap (fun s => (l.drop s.offset).take s.length) = l.take (k * partSize) := by
  have front (m : Nat) : (List.range m).flatMap (fun i =>
      (l.drop (stretch l.length i).offset).take (stretch l.length i).length) = l.take (m * partSize) := by
    induction m with
    | zero => rw [Nat.zero_mul, List.take_zero, List.range_zero, List.flatMap_nil]
    | succ m ih =>
      -- the part may be shorter than the others, but then the list ends with it
      have last : (l.drop (m * partSize)).take (min partSize (l.length - m * partSize)) =
          (l.drop (m * partSize)).take partSize := by
        rw [List.take_eq_take_iff, List.length_drop]
        omega
      rw [List.range_succ, List.flatMap_append, ih, List.flatMap_singleton, Nat.succ_mul, List.take_add]
      exact congrArg _ last
  rw [stretches, ← List.map_take, List.flatMap_map, List.take_range, front]
  rcases Nat.le_total k (partCount l.length) with inside | beyond
  · rw [Nat.min_eq_left inside]
  · have whole := le_partCount_mul l.length
    have further : l.length ≤ k * partSize := whole.trans (Nat.mul_le_mul_right partSize beyond)
    rw [Nat.min_eq_right beyond, List.take_of_length_le whole, List.take_of_length_le further]

theorem flatMap_prefix {α : Type} {l : List α} {parts : List Stretch} (h : parts <+: stretches l.length) :
    parts.flatMap (fun s => (l.drop s.offset).take s.length) <+: l := by
  rw [List.prefix_iff_eq_take.1 h, flatMap_take_stretches]
  exact List.take_prefix _ _

theorem flatMap_stretches {α : Type} (l : List α) :
    (stretches l.length).flatMap (fun s => (l.drop s.offset).take s.length) = l := by
  have all := flatMap_take_stretches l (partCount l.length)
  rwa [List.take_of_length_le (length_stretches l.length).le, List.take_of_length_le (le_partCount_mul l.length)] at all

theorem tiles_stretches (size : Nat) : Tiles size (stretches size) where
  count := (length_stretches size).trans (partCount_eq_ceilDiv size)
  place := by
    intro i s h
    obtain ⟨hi, rfl⟩ : ∃ _ : i < partCount size, stretch size i = s := by
      simpa [stretches, List.getElem?_eq_some_iff] using h
    exact ⟨rfl, rfl, stretch_end size i hi⟩
  nonempty := by
    intro s h
    obtain ⟨i, hi, rfl⟩ := List.mem_map.1 h
    exact stretch_length_pos (List.mem_range.1 hi)
  covers := by
    have all := flatMap_stretches (List.range size)
    rw [List.length_range] at all
    refine Eq.trans (List.flatMap_congr fun s h => ?_) all
    obtain ⟨i, hi, rfl⟩ := List.mem_map.1 h
    have inside := stretch_end size i (List.mem_range.1 hi)
    refine List.ext_getElem ?_ fun j _ _ => by simp
    rw [List.length_range', List.length_take, List.length_drop, List.length_range]
    omega

/-- Even the largest source has few enough parts for their numbers. -/
theorem partCount_lt {size : Nat} (small : size < 2 ^ 53) : partCount size < 2 ^ 31 := by
  unfold partCount partSize Files.mebibyte
  omega

def Operation.payload : Operation → Bytes
  | .putObject _ _ body _ _ | .uploadPart _ _ _ _ body => body.toBytes
  | _ => []

/-- The bytes that are sent are those of the contents from the first one on, each once, and all of them in a run that
succeeds. -/
structure Carries (contents : Contents) (outcome : Except Error Unit) (sent : List Exchange) : Prop where
  front : sent.flatMap (·.operation.payload) <+: contents.toBytes
  all : outcome = .ok () → sent.flatMap (·.operation.payload) = contents.toBytes

namespace Account

/-! ## What an upload comes to -/

section Course

variable (a : Account) (bucket key id : String) (source : Source)

inductive Requested (call : String) (op : Operation) : Except Error op.Answer → List Exchange → Prop where
  | answered (reached : a.reaches op) (reply : Reply) :
      Requested call op ((op.outcome reply).mapError fun fault => .client call fault.message) [⟨op, reply⟩]
  | unsent (unreached : ¬ a.reaches op) : Requested call op (.error (.client call (unsentFault op).message)) []

inductive Taken : List Stretch → List Exchange → List UploadedPart → Prop where
  | nil : Taken [] [] []
  | cons {s : Stretch} {body : Contents} {reply : Reply} {etag : Option String} {rest : List Stretch}
      {sent : List Exchange} {parts : List UploadedPart} (read : source.read s.offset s.length = .ok body)
      (answer : (Operation.uploadPart bucket key id s.number body).outcome reply = .ok etag)
      (further : Taken rest sent parts) :
      Taken (s :: rest) (⟨.uploadPart bucket key id s.number body, reply⟩ :: sent) (⟨s.number, etag⟩ :: parts)

inductive PartFails (s : Stretch) : Error → List Exchange → Prop where
  | unread {fault : ReadFault} (read : source.read s.offset s.length = .error fault) :
      PartFails s (.client "object_upload" fault.message) []
  | refused {body : Contents} {error : Error} {sent : List Exchange} (read : source.read s.offset s.length = .ok body)
      (request : a.Requested "object_upload" (.uploadPart bucket key id s.number body) (.error error) sent) :
      PartFails s error sent

inductive PartsSent : List Stretch → Except Error (List UploadedPart) → List Exchange → Prop where
  | all {stretches : List Stretch} {sent : List Exchange} {parts : List UploadedPart}
      (taken : Taken bucket key id source stretches sent parts) : PartsSent stretches (.ok parts) sent
  | stopped {front rest : List Stretch} {s : Stretch} {sent last : List Exchange} {parts : List UploadedPart}
      {error : Error} (taken : Taken bucket key id source front sent parts)
      (fails : a.PartFails bucket key id source s error last) : PartsSent (front ++ s :: rest) (.error error) (sent ++ last)

/-- How an upload goes once it is open. The completion is its end when all parts were taken; otherwise the first failure
is its error, whatever the abort comes to. -/
inductive OpenUpload : Except Error Unit → List Exchange → Prop where
  | completed {sent last : List Exchange} {parts : List UploadedPart} {outcome : Except Error Unit}
      (taken : Taken bucket key id source (stretches source.size) sent parts)
      (numbered : parts.map (·.number) = List.range' 1 (source.size ⌈/⌉ partSize))
      (completion : a.Requested "object_upload" (.completeUpload bucket key id parts) outcome last) :
      OpenUpload outcome (sent ++ last)
  | aborted {front rest : List Stretch} {s : Stretch} {sent failed last : List Exchange} {parts : List UploadedPart}
      {error : Error} {answer : Except Error Unit} (cut : stretches source.size = front ++ s :: rest)
      (taken : Taken bucket key id source front sent parts) (fails : a.PartFails bucket key id source s error failed)
      (abort : a.Requested "object_upload" (.abortUpload bucket key id) answer last) :
      OpenUpload (.error error) (sent ++ failed ++ last)

inductive PartedUpload : Except Error Unit → List Exchange → Prop where
  | unopened {error : Error} {sent : List Exchange}
      (opening : a.Requested "object_upload" (.createUpload bucket key none) (.error error) sent) :
      PartedUpload (.error error) sent
  | nameless {sent : List Exchange}
      (opening : a.Requested "object_upload" (.createUpload bucket key none) (.ok none) sent) :
      PartedUpload (.error (.client "object_upload" "missing upload id")) sent
  | opened {id : String} {outcome : Except Error Unit} {sent more : List Exchange}
      (opening : a.Requested "object_upload" (.createUpload bucket key none) (.ok (some id)) sent)
      (further : a.OpenUpload bucket key id source outcome more) : PartedUpload outcome (sent ++ more)

inductive WholeUpload : Except Error Unit → List Exchange → Prop where
  | unread {fault : ReadFault} (read : source.read 0 source.size = .error fault) :
      WholeUpload (.error (.client "put_object" fault.message)) []
  | put {body : Contents} {answer : Except Error (Option String)} {sent : List Exchange}
      (read : source.read 0 source.size = .ok body)
      (request : a.Requested "put_object" (.putObject bucket key body none none) answer sent) :
      WholeUpload (answer.map fun _ => ()) sent

end Course

/-! ## Runs -/

section Run

variable {a : Account} {bucket key id : String} {source : Source}

theorem send_requested (call : String) (op : Operation) (c : Conversation) (single : a.settings.maxAttempts ≤ 1) :
    ∃ sent, ((a.send call op).run c).2.exchanges = c.exchanges ++ sent ∧
      a.Requested call op ((a.send call op).run c).1 sent := by
  by_cases reached : a.reaches op
  · obtain ⟨reply, after, appended, run⟩ := exists_reply_of_reaches call c single reached
    rw [run]
    exact ⟨_, appended, .answered reached reply⟩
  · rw [run_send_unsent call c reached]
    exact ⟨[], (List.append_nil _).symm, .unsent reached⟩

theorem Requested.of_ok {call : String} {op : Operation} {answer : op.Answer} {sent : List Exchange}
    (h : a.Requested call op (.ok answer) sent) : ∃ reply, op.outcome reply = .ok answer ∧ sent = [⟨op, reply⟩] := by
  generalize ok : (Except.ok answer : Except Error op.Answer) = result at h
  cases h with
  | answered reached reply => exact ⟨reply, mapError_eq_ok_iff.1 ok.symm, rfl⟩
  | unsent unreached => cases ok

theorem Taken.numbers {stretches : List Stretch} {sent : List Exchange} {parts : List UploadedPart}
    (h : Taken bucket key id source stretches sent parts) : parts.map (·.number) = stretches.map (·.number) := by
  induction h with
  | nil => rfl
  | cons read answer further ih => rw [List.map_cons, List.map_cons, ih]

theorem PartsSent.cons {s : Stretch} {body : Contents} {reply : Reply} {etag : Option String} {rest : List Stretch}
    {outcome : Except Error (List UploadedPart)} {sent : List Exchange}
    (read : source.read s.offset s.length = .ok body)
    (answer : (Operation.uploadPart bucket key id s.number body).outcome reply = .ok etag)
    (h : a.PartsSent bucket key id source rest outcome sent) :
    a.PartsSent bucket key id source (s :: rest) (outcome.map (⟨s.number, etag⟩ :: ·))
      (⟨.uploadPart bucket key id s.number body, reply⟩ :: sent) := by
  cases h with
  | all taken => exact .all (.cons read answer taken)
  | stopped taken fails => exact .stopped (.cons read answer taken) fails

theorem PartsSent.of_ok {stretches : List Stretch} {sent : List Exchange} {parts : List UploadedPart}
    (h : a.PartsSent bucket key id source stretches (.ok parts) sent) :
    Taken bucket key id source stretches sent parts := by
  cases h with
  | all taken => exact taken

theorem PartsSent.of_error {stretches : List Stretch} {sent : List Exchange} {error : Error}
    (h : a.PartsSent bucket key id source stretches (.error error) sent) :
    ∃ front rest s taken parts failed, stretches = front ++ s :: rest ∧ sent = taken ++ failed ∧
      Taken bucket key id source front taken parts ∧ a.PartFails bucket key id source s error failed := by
  cases h with
  | stopped taken fails => exact ⟨_, _, _, _, _, _, rfl, rfl, taken, fails⟩

theorem sendParts_sent (single : a.settings.maxAttempts ≤ 1) (stretches : List Stretch) (c : Conversation) :
    ∃ sent, ((a.sendParts bucket key id source stretches).run c).2.exchanges = c.exchanges ++ sent ∧
      a.PartsSent bucket key id source stretches ((a.sendParts bucket key id source stretches).run c).1 sent := by
  induction stretches generalizing c with
  | nil => exact ⟨[], (List.append_nil _).symm, .all .nil⟩
  | cons s rest ih =>
    rw [sendParts, run_bind, run_readFor]
    cases read : source.read s.offset s.length with
    | error fault => exact ⟨[], (List.append_nil _).symm, .stopped .nil (.unread read)⟩
    | ok body =>
      obtain ⟨first, appended, request⟩ : ∃ sent, _ ∧ a.Requested "object_upload" _ _ sent :=
        send_requested "object_upload" (.uploadPart bucket key id s.number body) c single
      simp only [mapError_ok]
      rw [run_bind]
      rcases run : (a.send "object_upload" (.uploadPart bucket key id s.number body)).run c with
        ⟨error | etag, after⟩ <;> rw [run] at appended request
      · exact ⟨first, appended, .stopped .nil (.refused read request)⟩
      · obtain ⟨reply, answer, rfl⟩ := request.of_ok
        obtain ⟨sent, further, parts⟩ := ih after
        simp only
        rw [run_bind]
        refine ⟨⟨.uploadPart bucket key id s.number body, reply⟩ :: sent, ?_, ?_⟩
        · rw [List.append_cons, ← appended, ← further]
          rcases (a.sendParts bucket key id source rest).run after with ⟨_ | _, _⟩ <;> rfl
        · have grown := parts.cons read answer
          rcases h : (a.sendParts bucket key id source rest).run after with ⟨_ | _, _⟩ <;> rwa [h] at grown

theorem finishUpload_open (single : a.settings.maxAttempts ≤ 1) (c : Conversation) :
    ∃ sent,
      ((a.finishUpload bucket key id source (stretches source.size)).run c).2.exchanges = c.exchanges ++ sent ∧
        a.OpenUpload bucket key id source
          ((a.finishUpload bucket key id source (stretches source.size)).run c).1 sent := by
  obtain ⟨sent, appended, parts⟩ : ∃ sent, _ ∧ a.PartsSent bucket key id source (stretches source.size) _ sent :=
    sendParts_sent single (stretches source.size) c
  rw [run_finishUpload]
  rcases run : (a.sendParts bucket key id source (stretches source.size)).run c with ⟨error | listed, middle⟩ <;>
    rw [run] at appended parts
  · obtain ⟨last, further, abort⟩ : ∃ sent, _ ∧ a.Requested "object_upload" _ _ sent :=
      send_requested "object_upload" (.abortUpload bucket key id) middle single
    refine ⟨sent ++ last, by rw [further, appended, List.append_assoc], ?_⟩
    obtain ⟨front, rest, s, before, parts, failed, cut, rfl, taken, fails⟩ := parts.of_error
    exact .aborted cut taken fails abort
  · obtain ⟨last, further, completion⟩ : ∃ sent, _ ∧ a.Requested "object_upload" _ _ sent :=
      send_requested "object_upload" (.completeUpload bucket key id listed) middle single
    refine ⟨sent ++ last, by rw [further, appended, List.append_assoc], ?_⟩
    have taken := parts.of_ok
    have numbered := taken.numbers
    rw [numbers_stretches, partCount_eq_ceilDiv] at numbered
    exact .completed taken numbered completion

theorem run_uploadInParts_of_opened {stretches : List Stretch} {c middle : Conversation}
    (opening : (a.send "object_upload" (.createUpload bucket key none)).run c = (.ok (some id), middle)) :
    (a.uploadInParts bucket key source stretches).run c =
      (a.finishUpload bucket key id source stretches).run middle := by
  rw [uploadInParts, run_bind, opening]

theorem uploadInParts_parted (single : a.settings.maxAttempts ≤ 1) (c : Conversation) :
    ∃ sent, ((a.uploadInParts bucket key source (stretches source.size)).run c).2.exchanges = c.exchanges ++ sent ∧
      a.PartedUpload bucket key source ((a.uploadInParts bucket key source (stretches source.size)).run c).1 sent := by
  obtain ⟨first, appended, opening⟩ : ∃ sent, _ ∧ a.Requested "object_upload" _ _ sent :=
    send_requested "object_upload" (.createUpload bucket key none) c single
  rcases run : (a.send "object_upload" (.createUpload bucket key none)).run c with ⟨error | _ | id, middle⟩ <;>
    rw [run] at appended opening
  · rw [uploadInParts, run_bind, run]
    exact ⟨first, appended, .unopened opening⟩
  · rw [uploadInParts, run_bind, run]
    exact ⟨first, appended, .nameless opening⟩
  · obtain ⟨sent, further, goesOn⟩ : ∃ sent, _ ∧ a.OpenUpload bucket key id source _ sent :=
      finishUpload_open single middle
    rw [run_uploadInParts_of_opened run]
    exact ⟨first ++ sent, by rw [further, appended, List.append_assoc], .opened opening goesOn⟩

theorem upload_whole (single : a.settings.maxAttempts ≤ 1) (fits : source.size ≤ uploadThreshold) (c : Conversation) :
    ∃ sent, ((a.upload bucket key source).run c).2.exchanges = c.exchanges ++ sent ∧
      a.WholeUpload bucket key source ((a.upload bucket key source).run c).1 sent := by
  rw [upload, if_pos fits, Dialogue.run_discard, putSource, run_bind, run_readFor]
  cases read : source.read 0 source.size with
  | error fault => exact ⟨[], (List.append_nil _).symm, .unread read⟩
  | ok body =>
    obtain ⟨sent, appended, request⟩ : ∃ sent, _ ∧ a.Requested "put_object" _ _ sent :=
      send_requested "put_object" (.putObject bucket key body none none) c single
    exact ⟨sent, appended, .put read request⟩

end Run

/-! ## Bytes -/

section Payload

variable {a : Account} {bucket key id : String} {contents : Contents}

theorem toBytes_of_read {offset length : Nat} {body : Contents}
    (h : (Source.ofContents contents).read offset length = .ok body) :
    body.toBytes = (contents.toBytes.drop offset).take length := by
  simp only [Source.ofContents] at h
  split_ifs at h
  obtain rfl := Except.ok.inj h
  exact contents.toBytes_slice offset length

theorem Requested.payload {call : String} {op : Operation} {result : Except Error op.Answer} {sent : List Exchange}
    (h : a.Requested call op result sent) :
    sent.flatMap (·.operation.payload) = [] ∨ sent.flatMap (·.operation.payload) = op.payload := by
  cases h with
  | answered reached reply => exact Or.inr (List.flatMap_singleton ..)
  | unsent unreached => exact Or.inl rfl

theorem Requested.payload_eq_nil {call : String} {op : Operation} {result : Except Error op.Answer}
    {sent : List Exchange} (h : a.Requested call op result sent) (none : op.payload = []) :
    sent.flatMap (·.operation.payload) = [] := by
  rcases h.payload with h | h
  · exact h
  · exact h.trans none

theorem Taken.payload {stretches : List Stretch} {sent : List Exchange} {parts : List UploadedPart}
    (h : Taken bucket key id (.ofContents contents) stretches sent parts) :
    sent.flatMap (·.operation.payload) =
      stretches.flatMap fun s => (contents.toBytes.drop s.offset).take s.length := by
  induction h with
  | nil => rfl
  | cons read answer further ih =>
    rw [List.flatMap_cons, List.flatMap_cons, ih, ← toBytes_of_read read]
    rfl

theorem PartFails.payload {s : Stretch} {error : Error} {sent : List Exchange}
    (h : a.PartFails bucket key id (.ofContents contents) s error sent) :
    sent.flatMap (·.operation.payload) = [] ∨
      sent.flatMap (·.operation.payload) = (contents.toBytes.drop s.offset).take s.length := by
  cases h with
  | unread read => exact Or.inl rfl
  | refused read request =>
    rw [← toBytes_of_read read]
    exact request.payload

theorem OpenUpload.carries {outcome : Except Error Unit} {sent : List Exchange}
    (h : a.OpenUpload bucket key id (.ofContents contents) outcome sent) : Carries contents outcome sent := by
  have size : (Source.ofContents contents).size = contents.toBytes.length := contents.length_toBytes.symm
  cases h with
  | @completed sent last parts _ taken numbered completion =>
    have whole : (sent ++ last).flatMap (·.operation.payload) = contents.toBytes := by
      rw [List.flatMap_append, completion.payload_eq_nil rfl, List.append_nil, taken.payload, size, flatMap_stretches]
    exact ⟨whole ▸ List.prefix_refl _, fun _ => whole⟩
  | @aborted front rest s sent failed last parts error answer cut taken fails abort =>
    refine ⟨?_, nofun⟩
    rw [size] at cut
    rw [List.flatMap_append, List.flatMap_append, abort.payload_eq_nil rfl, List.append_nil, taken.payload]
    -- the part that stopped may have been sent or not
    rcases fails.payload with none | some
    · rw [none, List.append_nil]
      exact flatMap_prefix ⟨s :: rest, cut.symm⟩
    · have through : front ++ [s] <+: stretches contents.toBytes.length := by
        rw [cut, List.append_cons front s rest]
        exact List.prefix_append _ _
      have bytes := flatMap_prefix through
      rwa [List.flatMap_append, List.flatMap_singleton, ← some] at bytes

theorem PartedUpload.carries {outcome : Except Error Unit} {sent : List Exchange}
    (h : a.PartedUpload bucket key (.ofContents contents) outcome sent) : Carries contents outcome sent := by
  have unsent {error : Error} {result : Except Error (Option String)} {sent : List Exchange}
      (opening : a.Requested "object_upload" (.createUpload bucket key none) result sent) :
      Carries contents (.error error) sent := by
    refine ⟨?_, nofun⟩
    rw [opening.payload_eq_nil rfl]
    exact List.nil_prefix
  cases h with
  | unopened opening => exact unsent opening
  | nameless opening => exact unsent opening
  | opened opening further =>
    obtain ⟨front, all⟩ := further.carries
    constructor
    · rwa [List.flatMap_append, opening.payload_eq_nil rfl]
    · rwa [List.flatMap_append, opening.payload_eq_nil rfl]

theorem WholeUpload.carries {outcome : Except Error Unit} {sent : List Exchange}
    (h : a.WholeUpload bucket key (.ofContents contents) outcome sent) : Carries contents outcome sent := by
  cases h with
  | unread read => exact ⟨List.nil_prefix, nofun⟩
  | @put body answer _ read request =>
    have body : body.toBytes = contents.toBytes := by
      rw [toBytes_of_read read, List.drop_zero]
      exact List.take_of_length_le contents.length_toBytes.le
    constructor
    · rcases request.payload with none | some
      · rw [none]
        exact List.nil_prefix
      · rw [some, ← body]
        exact List.prefix_refl _
    · intro ok
      obtain ⟨etag, rfl, -⟩ := map_eq_ok_iff.1 ok
      obtain ⟨reply, -, rfl⟩ := request.of_ok
      exact (List.flatMap_singleton ..).trans body

end Payload

/-- Up to the threshold a source is sent whole, and above it in parts that cut it without a gap or an overlap. The parts
are sent in order; the first failure of a request or of a read is the error, and only parts that were all taken are
completed, with their own entity tags. Of a file, no byte is sent twice and none is left out. That holds of any source,
which may fail to be read, of the file at a path, and for all replies of the service. -/
theorem upload_sends_in_order {a : Account} {bucket key : String} {source : Source} {c after : Conversation}
    {outcome : Except Error Unit} (single : a.settings.maxAttempts ≤ 1) (small : source.size < 2 ^ 53)
    (h : (a.upload bucket key source).run c = (outcome, after) ∨
      ∃ path entry, c.files.get path = .ok entry ∧ Source.ofEntry entry = source ∧
        (a.objectUpload bucket key path).run c = (outcome, after)) :
    ∃ sent, after.exchanges = c.exchanges ++ sent ∧
      (source.size ≤ uploadThreshold → a.WholeUpload bucket key source outcome sent) ∧
      (uploadThreshold < source.size → a.PartedUpload bucket key source outcome sent) ∧
      (∀ contents, source = .ofContents contents → Carries contents outcome sent) ∧
      Tiles source.size (stretches source.size) ∧ ∀ s ∈ stretches source.size, s.number < 2 ^ 31 := by
  have run : (a.upload bucket key source).run c = (outcome, after) := by
    rcases h with h | ⟨path, entry, found, rfl, h⟩
    · exact h
    · rw [← run_objectUpload found, h]
  have numbers : ∀ s ∈ stretches source.size, s.number < 2 ^ 31 := fun s hs =>
    (number_le_of_mem hs).trans_lt (partCount_lt small)
  rcases Nat.lt_or_ge uploadThreshold source.size with large | fits
  · obtain ⟨sent, appended, parted⟩ : ∃ sent, _ ∧ a.PartedUpload bucket key source _ sent :=
      uploadInParts_parted single c
    rw [← run_upload_of_large large, run] at appended parted
    refine ⟨sent, appended, fun fits => absurd large (Nat.not_lt.2 fits), fun _ => parted, ?_, tiles_stretches _,
      numbers⟩
    rintro contents rfl
    exact parted.carries
  · obtain ⟨sent, appended, whole⟩ : ∃ sent, _ ∧ a.WholeUpload bucket key source _ sent := upload_whole single fits c
    rw [run] at appended whole
    refine ⟨sent, appended, fun _ => whole, fun large => absurd large (Nat.not_lt.2 fits), ?_, tiles_stretches _,
      numbers⟩
    rintro contents rfl
    exact whole.carries

/-- The file has one byte more than a part, and the completion fails after both parts were taken. -/
theorem upload_sends_in_order_two_parts :
    ∃ sent, TwoParts.exchanges = [] ++ sent ∧
      TwoParts.account.PartedUpload "b" "k" (Source.ofEntry TwoParts.entry)
        (.error (.client "object_upload" "<service error>")) sent ∧
      sent.flatMap (·.operation.payload) <+: (Contents.zeros (uploadThreshold + 1)).toBytes := by
  have single : TwoParts.account.settings.maxAttempts ≤ 1 := by decide
  have small : (Source.ofEntry TwoParts.entry).size < 2 ^ 53 := by decide
  have large : uploadThreshold < (Source.ofEntry TwoParts.entry).size := Nat.lt_succ_self _
  obtain ⟨sent, appended, -, parted, carries, -⟩ := upload_sends_in_order single small
    (Or.inr ⟨"big", TwoParts.entry, rfl, rfl, TwoParts.run_objectUpload_eq⟩)
  exact ⟨sent, appended, parted large, (carries _ rfl).front⟩

end Account

end BucketBench
