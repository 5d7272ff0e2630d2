import BucketBench.Proofs.Service.Dialogue
import BucketBench.Service.Uploads

set_option autoImplicit false

/-!
# How uploads in parts end

An upload that was opened should end with its completion or with one abortion. Whatever the service answers and
whatever cannot be read, that is so as long as its identifier is not empty and no completion fails: a failed
completion leaves the upload open.
-/

namespace BucketBench

/-! ## Exchanges of an upload -/

namespace Exchange

variable (e : Exchange) (bucket key upload : String)

def Opens : Prop :=
  e.operation = .createUpload bucket key none ∧
    (Operation.createUpload bucket key none).outcome e.reply = .ok (some upload)

def SendsPart : Prop := ∃ number body, e.operation = .uploadPart bucket key upload number body

def Completes : Prop := ∃ parts, e.operation = .completeUpload bucket key upload parts

def Aborts : Prop := e.operation = .abortUpload bucket key upload

end Exchange

/-- The exchanges of a run end an upload: it succeeds with the completion as the last one, or it fails with the only
abortion as the last one. -/
def EndsUpload (bucket key upload : String) (outcome : Except Error Unit) (sent : List Exchange) : Prop :=
  (outcome = .ok () ∧
      ∃ lead e, sent = lead ++ [e] ∧ e.Completes bucket key upload ∧ e.isSuccess = true) ∨
    (∃ fault, outcome = .error fault) ∧
      ∃ lead e, sent = lead ++ [e] ∧ e.Aborts bucket key upload ∧ ∀ f ∈ lead, ¬ f.Aborts bucket key upload

inductive Finishes (bucket key upload : String) : Except Error Unit → List Exchange → Prop where
  | unsent (fault : Error) (nameless : upload = "") : Finishes bucket key upload (.error fault) []
  | completed {parts : List Exchange} {e : Exchange} (named : upload ≠ "")
      (lead : ∀ p ∈ parts, p.SendsPart bucket key upload) (last : e.Completes bucket key upload)
      (success : e.isSuccess = true) : Finishes bucket key upload (.ok ()) (parts ++ [e])
  | uncompleted {parts : List Exchange} {e : Exchange} (fault : Error) (named : upload ≠ "")
      (lead : ∀ p ∈ parts, p.SendsPart bucket key upload) (last : e.Completes bucket key upload)
      (failure : e.isSuccess = false) : Finishes bucket key upload (.error fault) (parts ++ [e])
  | aborted {parts : List Exchange} {e : Exchange} (fault : Error) (named : upload ≠ "")
      (lead : ∀ p ∈ parts, p.SendsPart bucket key upload) (last : e.Aborts bucket key upload) :
      Finishes bucket key upload (.error fault) (parts ++ [e])

section Kinds

variable {e : Exchange} {bucket key upload : String}

theorem Exchange.Opens.not_aborts {other : String} (h : e.Opens bucket key other) : ¬ e.Aborts bucket key upload := by
  rw [Exchange.Aborts, h.1]
  exact Operation.noConfusion

theorem Exchange.Opens.not_completes {other : String} (h : e.Opens bucket key other) :
    ¬ e.Completes bucket key upload := by
  rintro ⟨parts, h'⟩
  rw [h.1] at h'
  cases h'

theorem Exchange.Opens.not_sendsPart {other : String} (h : e.Opens bucket key other) :
    ¬ e.SendsPart bucket key upload := by
  rintro ⟨number, body, h'⟩
  rw [h.1] at h'
  cases h'

theorem Exchange.Opens.unique {other : String} (h : e.Opens bucket key upload) (h' : e.Opens bucket key other) :
    upload = other := by
  have answers := h.2.symm.trans h'.2
  cases answers
  rfl

theorem Exchange.SendsPart.not_aborts (h : e.SendsPart bucket key upload) : ¬ e.Aborts bucket key upload := by
  obtain ⟨number, body, h⟩ := h
  rw [Exchange.Aborts, h]
  exact Operation.noConfusion

theorem Exchange.SendsPart.not_completes (h : e.SendsPart bucket key upload) : ¬ e.Completes bucket key upload := by
  obtain ⟨number, body, h⟩ := h
  rintro ⟨parts, h'⟩
  rw [h] at h'
  cases h'

theorem Exchange.Completes.not_aborts (h : e.Completes bucket key upload) : ¬ e.Aborts bucket key upload := by
  obtain ⟨parts, h⟩ := h
  rw [Exchange.Aborts, h]
  exact Operation.noConfusion

theorem endsUpload_cons {outcome : Except Error Unit} {sent : List Exchange}
    (ha : ¬ e.Aborts bucket key upload) (hc : ¬ e.Completes bucket key upload) :
    EndsUpload bucket key upload outcome (e :: sent) ↔ EndsUpload bucket key upload outcome sent := by
  have last : ∀ {lead : List Exchange} {f : Exchange}, e :: sent = lead ++ [f] → f ≠ e →
      ∃ lead', lead = e :: lead' ∧ sent = lead' ++ [f] := by
    intro lead f h ne
    cases lead with
    | nil =>
      simp only [List.nil_append, List.cons.injEq] at h
      exact absurd h.1.symm ne
    | cons first lead =>
      simp only [List.cons_append, List.cons.injEq] at h
      exact ⟨lead, by rw [h.1], h.2⟩
  constructor
  · rintro (⟨ok, lead, f, h, hf, success⟩ | ⟨failed, lead, f, h, hf, none⟩)
    · obtain ⟨lead', -, rfl⟩ := last h fun same => hc (same ▸ hf)
      exact Or.inl ⟨ok, lead', f, rfl, hf, success⟩
    · obtain ⟨lead', rfl, rfl⟩ := last h fun same => ha (same ▸ hf)
      exact Or.inr ⟨failed, lead', f, rfl, hf, fun g hg => none g (List.mem_cons_of_mem _ hg)⟩
  · rintro (⟨ok, lead, f, rfl, hf, success⟩ | ⟨failed, lead, f, rfl, hf, none⟩)
    · exact Or.inl ⟨ok, e :: lead, f, rfl, hf, success⟩
    · refine Or.inr ⟨failed, e :: lead, f, rfl, hf, ?_⟩
      intro g hg
      rcases List.mem_cons.1 hg with rfl | hg
      · exact ha
      · exact none g hg

theorem endsUpload_iff_of_finishes {outcome : Except Error Unit} {sent : List Exchange}
    (h : Finishes bucket key upload outcome sent) :
    EndsUpload bucket key upload outcome sent ↔
      upload ≠ "" ∧ ∀ e ∈ sent, e.Completes bucket key upload → e.isSuccess = true := by
  cases h with
  | unsent fault nameless => simp [EndsUpload, nameless]
  | @completed parts e named lead last success =>
    refine iff_of_true (Or.inl ⟨rfl, parts, e, rfl, last, success⟩) ⟨named, ?_⟩
    intro f hf completes
    rcases List.mem_append.1 hf with hf | hf
    · exact absurd completes (lead f hf).not_completes
    · rwa [List.mem_singleton.1 hf]
  | @uncompleted parts e fault named lead last failure =>
    refine iff_of_false ?_ ?_
    · rintro (⟨ok, -⟩ | ⟨-, lead', f, same, aborts, -⟩)
      · cases ok
      · obtain ⟨-, single⟩ := List.append_inj' same rfl
        cases single
        exact last.not_aborts aborts
    · rintro ⟨-, succeed⟩
      have success := succeed e (by simp) last
      rw [failure] at success
      cases success
  | @aborted parts e fault named lead last =>
    refine iff_of_true (Or.inr ⟨⟨fault, rfl⟩, parts, e, rfl, last, fun p hp => (lead p hp).not_aborts⟩) ⟨named, ?_⟩
    intro f hf completes
    rcases List.mem_append.1 hf with hf | hf
    · exact absurd completes (lead f hf).not_completes
    · rw [List.mem_singleton.1 hf] at completes
      exact absurd last completes.not_aborts

theorem not_opens_of_finishes {outcome : Except Error Unit} {sent : List Exchange}
    (h : Finishes bucket key upload outcome sent) {other : String} (he : e ∈ sent) : ¬ e.Opens bucket key other := by
  intro opens
  have inLead : ∀ {parts : List Exchange}, (∀ p ∈ parts, p.SendsPart bucket key upload) → e ∉ parts :=
    fun lead mem => opens.not_sendsPart (lead e mem)
  cases h with
  | unsent => simp at he
  | completed _ lead last _ | uncompleted _ _ lead last _ =>
    rcases List.mem_append.1 he with he | he
    · exact inLead lead he
    · rw [List.mem_singleton.1 he] at opens
      exact opens.not_completes last
  | aborted _ _ lead last =>
    rcases List.mem_append.1 he with he | he
    · exact inLead lead he
    · rw [List.mem_singleton.1 he] at opens
      exact opens.not_aborts last

end Kinds

theorem stretches_ne_nil {size : Nat} (h : 0 < size) : stretches size ≠ [] := by
  have first : 0 < partCount size := by
    rw [lt_partCount_iff]
    omega
  intro none
  have length := congrArg List.length none
  rw [stretches, List.length_map, List.length_range, List.length_nil] at length
  omega

namespace Account

/-! ## Runs -/

section Run

variable {a : Account} {bucket key upload : String}

/-- An operation on an open upload can be put to the service when opening one can, and the upload has a name. -/
theorem reaches_iff_of_upload {op : Operation} (hb : op.bucket? = some bucket) (hk : op.key? = some key)
    (hu : op.upload? = some upload) (hh : op.headers = []) :
    a.reaches op ↔ upload ≠ "" ∧ a.reaches (.createUpload bucket key none) := by
  have opening : (Operation.createUpload bucket key none).isComplete = (bucket != "" && key != "") := by
    simp [Operation.isComplete, Operation.bucket?, Operation.key?, Operation.upload?, Operation.headers]
  have shape : op.isComplete = (bucket != "" && key != "" && upload != "") := by
    simp [Operation.isComplete, hb, hk, hu, hh]
  have place : (Operation.createUpload bucket key none).bucket? = some bucket := rfl
  simp only [reaches, opening, shape, hb, place, Bool.and_eq_true, bne_iff_ne]
  constructor
  · rintro ⟨⟨names, named⟩, site⟩
    exact ⟨named, names, site⟩
  · rintro ⟨named, names, site⟩
    exact ⟨⟨names, named⟩, site⟩

variable (single : a.settings.maxAttempts ≤ 1)
include single

theorem sendParts_sends (source : Source) (parts : List Stretch) (c : Conversation) :
    ∃ sent, ((a.sendParts bucket key upload source parts).run c).2.exchanges = c.exchanges ++ sent ∧
      ∀ e ∈ sent, e.SendsPart bucket key upload := by
  induction parts generalizing c with
  | nil => exact ⟨[], (List.append_nil _).symm, fun _ he => absurd he List.not_mem_nil⟩
  | cons s rest ih =>
    rw [sendParts, run_bind, run_readFor]
    cases source.read s.offset s.length with
    | error fault => exact ⟨[], (List.append_nil _).symm, fun _ he => absurd he List.not_mem_nil⟩
    | ok body =>
      simp only [mapError_ok]
      rw [run_bind]
      rcases a.send_cases "object_upload" (.uploadPart bucket key upload s.number body) c single with
        ⟨-, reply, after, appended, run⟩ | ⟨-, e, run⟩
      · rw [run]
        cases (Operation.uploadPart bucket key upload s.number body).outcome reply with
        | error fault =>
          refine ⟨_, appended, ?_⟩
          intro e he
          rw [List.mem_singleton.1 he]
          exact ⟨s.number, body, rfl⟩
        | ok etag =>
          obtain ⟨sent, further, each⟩ := ih after
          simp only [mapError_ok]
          rw [run_bind]
          refine ⟨⟨.uploadPart bucket key upload s.number body, reply⟩ :: sent, ?_, ?_⟩
          · rw [List.append_cons, ← appended, ← further]
            rcases (a.sendParts bucket key upload source rest).run after with ⟨outcome, later⟩
            cases outcome <;> rfl
          · intro e he
            rcases List.mem_cons.1 he with rfl | he
            · exact ⟨s.number, body, rfl⟩
            · exact each e he
      · rw [run]
        exact ⟨[], (List.append_nil _).symm, fun _ he => absurd he List.not_mem_nil⟩

omit single in
theorem sendParts_nameless (source : Source) (s : Stretch) (rest : List Stretch) (c : Conversation) :
    ∃ e, (a.sendParts bucket key "" source (s :: rest)).run c = (.error e, c) := by
  rw [sendParts, run_bind, run_readFor]
  cases source.read s.offset s.length with
  | error fault => exact ⟨_, rfl⟩
  | ok body =>
    have stuck : ¬ a.reaches (.uploadPart bucket key "" s.number body) := by
      intro h
      exact ((reaches_iff_of_upload rfl rfl rfl rfl).1 h).1 rfl
    obtain ⟨e, run⟩ := run_send_of_not_reaches "object_upload" c stuck
    simp only [mapError_ok]
    rw [run_bind, run]
    exact ⟨e, rfl⟩

omit single in
theorem run_finishUpload (source : Source) (stretches : List Stretch) (c : Conversation) :
    (a.finishUpload bucket key upload source stretches).run c =
      match (a.sendParts bucket key upload source stretches).run c with
      | (.ok parts, middle) => (a.send "object_upload" (.completeUpload bucket key upload parts)).run middle
      | (.error fault, middle) =>
        (.error fault, ((a.send "object_upload" (.abortUpload bucket key upload)).run middle).2) := by
  rw [finishUpload, run_bind, Dialogue.run_attempt]
  rcases (a.sendParts bucket key upload source stretches).run c with ⟨outcome, middle⟩
  cases outcome with
  | ok parts => rfl
  | error fault =>
    simp only
    rw [run_bind, Dialogue.run_discard, Dialogue.run_attempt]
    rfl

omit single in
theorem finishUpload_nameless (source : Source) {stretches : List Stretch} (nonempty : stretches ≠ [])
    (c : Conversation) : ∃ e, (a.finishUpload bucket key "" source stretches).run c = (.error e, c) := by
  obtain ⟨s, rest, rfl⟩ := List.exists_cons_of_ne_nil nonempty
  obtain ⟨e, run⟩ : ∃ e, (a.sendParts bucket key "" source (s :: rest)).run c = (.error e, c) :=
    sendParts_nameless source s rest c
  have stuck : ¬ a.reaches (.abortUpload bucket key "") := by
    intro h
    exact ((reaches_iff_of_upload rfl rfl rfl rfl).1 h).1 rfl
  obtain ⟨e', run'⟩ := run_send_of_not_reaches "object_upload" c stuck
  rw [run_finishUpload, run]
  simp only
  rw [run']
  exact ⟨e, rfl⟩

theorem finishUpload_finishes (reached : a.reaches (.createUpload bucket key none)) (source : Source)
    {stretches : List Stretch} (nonempty : stretches ≠ []) (c : Conversation) :
    ∃ sent, ((a.finishUpload bucket key upload source stretches).run c).2.exchanges = c.exchanges ++ sent ∧
      Finishes bucket key upload ((a.finishUpload bucket key upload source stretches).run c).1 sent := by
  by_cases named : upload = ""
  · subst named
    obtain ⟨e, run⟩ : ∃ e, (a.finishUpload bucket key "" source stretches).run c = (.error e, c) :=
      finishUpload_nameless source nonempty c
    rw [run]
    exact ⟨[], (List.append_nil _).symm, .unsent e rfl⟩
  · have reach : ∀ {op : Operation}, op.bucket? = some bucket → op.key? = some key → op.upload? = some upload →
        op.headers = [] → a.reaches op := by
      intro op hb hk hu hh
      exact (reaches_iff_of_upload hb hk hu hh).2 ⟨named, reached⟩
    obtain ⟨parts, appended, each⟩ : ∃ sent,
        ((a.sendParts bucket key upload source stretches).run c).2.exchanges = c.exchanges ++ sent ∧
          ∀ e ∈ sent, e.SendsPart bucket key upload := sendParts_sends single source stretches c
    rw [run_finishUpload]
    rcases hp : (a.sendParts bucket key upload source stretches).run c with ⟨outcome, middle⟩
    rw [hp] at appended
    cases outcome with
    | ok done =>
      have reach' : a.reaches (.completeUpload bucket key upload done) := reach rfl rfl rfl rfl
      obtain ⟨reply, after, further, run⟩ := exists_reply_of_reaches "object_upload" middle single reach'
      simp only
      rw [run, further, appended, List.append_assoc]
      refine ⟨_, rfl, ?_⟩
      cases h : (Operation.completeUpload bucket key upload done).outcome reply with
      | ok answer => exact .completed named each ⟨done, rfl⟩ (by rw [Exchange.isSuccess, h]; rfl)
      | error fault => exact .uncompleted _ named each ⟨done, rfl⟩ (by rw [Exchange.isSuccess, h]; rfl)
    | error fault =>
      have reach' : a.reaches (.abortUpload bucket key upload) := reach rfl rfl rfl rfl
      obtain ⟨reply, after, further, run⟩ := exists_reply_of_reaches "object_upload" middle single reach'
      have aborts : Exchange.Aborts ⟨.abortUpload bucket key upload, reply⟩ bucket key upload := rfl
      simp only
      rw [run, further, appended, List.append_assoc]
      exact ⟨_, rfl, .aborted fault named each aborts⟩

/-- What a run that uploads in parts exchanges: the request for an upload, and, with an identifier in the answer,
what finishes that upload. -/
theorem uploadInParts_cases (source : Source) {stretches : List Stretch} (nonempty : stretches ≠ [])
    (c : Conversation) :
    ∃ sent, ((a.uploadInParts bucket key source stretches).run c).2.exchanges = c.exchanges ++ sent ∧
      ((∀ e ∈ sent, ∀ id, ¬ e.Opens bucket key id) ∨
        ∃ e rest id, sent = e :: rest ∧ e.Opens bucket key id ∧
          Finishes bucket key id ((a.uploadInParts bucket key source stretches).run c).1 rest) := by
  rw [uploadInParts, run_bind]
  rcases a.send_cases "object_upload" (.createUpload bucket key none) c single with
    ⟨reached, reply, after, appended, run⟩ | ⟨-, e, run⟩
  · have unopened : (∀ id, (Operation.createUpload bucket key none).outcome reply ≠ .ok (some id)) →
        ∀ e ∈ [Exchange.mk (.createUpload bucket key none) reply], ∀ id, ¬ e.Opens bucket key id := by
      intro none e he id opens
      rw [List.mem_singleton.1 he] at opens
      exact none id opens.2
    rw [run]
    rcases h : (Operation.createUpload bucket key none).outcome reply with fault | (_ | id)
    · exact ⟨_, appended, Or.inl (unopened (by simp [h]))⟩
    · exact ⟨_, appended, Or.inl (unopened (by simp [h]))⟩
    · obtain ⟨sent, further, finishes⟩ : ∃ sent,
          ((a.finishUpload bucket key id source stretches).run after).2.exchanges = after.exchanges ++ sent ∧
            Finishes bucket key id ((a.finishUpload bucket key id source stretches).run after).1 sent :=
        finishUpload_finishes single reached source nonempty after
      simp only [mapError_ok]
      refine ⟨⟨.createUpload bucket key none, reply⟩ :: sent, ?_, Or.inr ⟨_, sent, id, rfl, ⟨rfl, h⟩, finishes⟩⟩
      rw [List.append_cons, ← appended, ← further]
  · rw [run]
    exact ⟨[], (List.append_nil _).symm, Or.inl fun _ he => absurd he List.not_mem_nil⟩

theorem uploadInParts_ends_iff (source : Source) {stretches : List Stretch} (nonempty : stretches ≠ [])
    (c : Conversation) :
    ∃ sent, ((a.uploadInParts bucket key source stretches).run c).2.exchanges = c.exchanges ++ sent ∧
      ∀ id, (∃ e ∈ sent, e.Opens bucket key id) →
        (EndsUpload bucket key id ((a.uploadInParts bucket key source stretches).run c).1 sent ↔
          id ≠ "" ∧ ∀ e ∈ sent, e.Completes bucket key id → e.isSuccess = true) := by
  obtain ⟨sent, appended, none | ⟨e, rest, id, rfl, opens, finishes⟩⟩ : ∃ sent,
      ((a.uploadInParts bucket key source stretches).run c).2.exchanges = c.exchanges ++ sent ∧ _ :=
    uploadInParts_cases single source nonempty c
  · refine ⟨sent, appended, ?_⟩
    rintro id ⟨e, he, opens⟩
    exact absurd opens (none e he id)
  · refine ⟨e :: rest, appended, ?_⟩
    rintro other ⟨f, hf, opens'⟩
    have first : f = e := by
      rcases List.mem_cons.1 hf with first | later
      · exact first
      · exact absurd opens' (not_opens_of_finishes finishes later)
    subst first
    obtain rfl : other = id := opens'.unique opens
    have notCompletes : ¬ f.Completes bucket key other := opens.not_completes
    rw [endsUpload_cons opens.not_aborts notCompletes, endsUpload_iff_of_finishes finishes, List.forall_mem_cons]
    exact and_congr_right fun _ => ⟨fun h => ⟨fun completes => absurd completes notCompletes, h⟩, And.right⟩

omit single in
theorem run_upload_of_large {source : Source} (large : uploadThreshold < source.size) (c : Conversation) :
    (a.upload bucket key source).run c = (a.uploadInParts bucket key source (stretches source.size)).run c := by
  rw [upload, if_neg (Nat.not_le.2 large)]

omit single in
theorem run_objectUpload {path : String} {entry : FileEntry} {c : Conversation} (h : c.files.get path = .ok entry) :
    (a.objectUpload bucket key path).run c = (a.upload bucket key (Source.ofEntry entry)).run c := by
  rw [objectUpload, run_bind, run_get]
  simp only [h]

end Run

/-- An upload in parts that was opened ends, with its completion or with one abortion, exactly when its identifier
is not empty and no completion of it failed. That holds of any source, which may fail to be read, of the file at a
path, and for all replies of the service. -/
theorem upload_ends_iff {a : Account} {bucket key : String} {source : Source} {c after : Conversation}
    {outcome : Except Error Unit} (single : a.settings.maxAttempts ≤ 1) (large : uploadThreshold < source.size)
    (h : (a.upload bucket key source).run c = (outcome, after) ∨
      ∃ path entry, c.files.get path = .ok entry ∧ Source.ofEntry entry = source ∧
        (a.objectUpload bucket key path).run c = (outcome, after)) :
    ∃ sent, after.exchanges = c.exchanges ++ sent ∧
      ∀ id, (∃ e ∈ sent, e.Opens bucket key id) →
        (EndsUpload bucket key id outcome sent ↔
          id ≠ "" ∧ ∀ e ∈ sent, e.Completes bucket key id → e.isSuccess = true) := by
  have run : (a.uploadInParts bucket key source (stretches source.size)).run c = (outcome, after) := by
    rcases h with h | ⟨path, entry, found, rfl, h⟩
    · rw [← run_upload_of_large large, h]
    · rw [← run_upload_of_large large, ← run_objectUpload found, h]
  have positive : 0 < source.size := Nat.zero_lt_of_lt large
  obtain ⟨sent, appended, ends⟩ := uploadInParts_ends_iff single source (stretches_ne_nil positive) c
  rw [run] at appended ends
  exact ⟨sent, appended, ends⟩

/-! ## An upload of two parts -/

namespace TwoParts

def account : Account := ⟨{ endpoint := "http://storage" }⟩

def entry : FileEntry := .file (.zeros (uploadThreshold + 1))

def files : Files := ⟨[(["big"], entry)], []⟩

def opened : Reply := .answered ⟨200, [],
  "<InitiateMultipartUploadResult><UploadId>u</UploadId></InitiateMultipartUploadResult>"⟩

def taken : Reply := .answered ⟨200, [], ""⟩

def failed : Reply := .answered ⟨500, [], ""⟩

def exchanges : List Exchange :=
  [⟨.createUpload "b" "k" none, opened⟩, ⟨.uploadPart "b" "k" "u" 1 (.zeros partSize), taken⟩,
   ⟨.uploadPart "b" "k" "u" 2 (.zeros 1), taken⟩, ⟨.completeUpload "b" "k" "u" [⟨1, none⟩, ⟨2, none⟩], failed⟩]

theorem stretches_eq : stretches (uploadThreshold + 1) = [⟨1, 0, partSize⟩, ⟨2, partSize, 1⟩] := by
  have two : partCount (uploadThreshold + 1) = 2 := by simp [partCount, partSize, uploadThreshold, Files.mebibyte]
  rw [stretches, two]
  simp [stretch, List.range_succ, partSize, uploadThreshold, Files.mebibyte]

theorem reaches_create : account.reaches (.createUpload "b" "k" none) := by
  constructor <;> rfl

theorem reaches_further {op : Operation} (hb : op.bucket? = some "b") (hk : op.key? = some "k")
    (hu : op.upload? = some "u") (hh : op.headers = []) : account.reaches op :=
  (reaches_iff_of_upload hb hk hu hh).2 ⟨by decide, reaches_create⟩

set_option maxRecDepth 2000 in
theorem opens_create : Exchange.Opens ⟨.createUpload "b" "k" none, opened⟩ "b" "k" "u" := by
  refine ⟨rfl, ?_⟩
  obtain ⟨text, same, chars⟩ : ∃ text, opened = .answered ⟨200, [], text⟩ ∧ text.toList = _ :=
    ⟨_, rfl, String.toList_ofList⟩
  have read : Xml.Element.root? text = some ⟨⟨"", "InitiateMultipartUploadResult"⟩,
      [.element ⟨"", "UploadId"⟩ [.text ['u']]]⟩ := by
    rw [Xml.Element.root?, Xml.parts, Xml.Token.scan, chars]
    rfl
  show (Operation.createUpload "b" "k" none).outcome opened = _
  rw [same]
  refine Operation.outcome_of_root read rfl ?_
  rw [Operation.accept?, Response.uploadId?, Xml.Element.expect?, read]
  rfl

theorem run_objectUpload_eq :
    (account.objectUpload "b" "k" "big").run ⟨files, [opened, taken, taken, failed], []⟩ =
      (.error (.client "object_upload" "<service error>"), ⟨files, [], exchanges⟩) := by
  have found : files.get "big" = .ok entry := rfl
  have large : uploadThreshold < (Source.ofEntry entry).size := Nat.lt_succ_self _
  have size : (Source.ofEntry entry).size = uploadThreshold + 1 := rfl
  have first : (Source.ofEntry entry).read 0 partSize = .ok (.zeros partSize) := rfl
  have second : (Source.ofEntry entry).read partSize 1 = .ok (.zeros 1) := rfl
  have accepted : ∀ n c, (Operation.uploadPart "b" "k" "u" n c).outcome taken = .ok none := fun _ _ => rfl
  have refused : ∀ l, (Operation.completeUpload "b" "k" "u" l).outcome failed = .error .unusable := fun _ => rfl
  have single : account.settings.maxAttempts ≤ 1 := by decide
  rw [run_objectUpload found, run_upload_of_large large, size, stretches_eq, uploadInParts, run_bind,
    run_send_of_reply single reaches_create, opens_create.2]
  simp only [mapError_ok]
  rw [run_finishUpload, sendParts, run_bind, run_readFor, first]
  simp only [mapError_ok]
  rw [run_bind, run_send_of_reply single (reaches_further rfl rfl rfl rfl), accepted]
  simp only [mapError_ok]
  rw [run_bind, sendParts, run_bind, run_readFor, second]
  simp only [mapError_ok]
  rw [run_bind, run_send_of_reply single (reaches_further rfl rfl rfl rfl), accepted]
  simp only [mapError_ok]
  rw [run_bind, sendParts]
  show (account.send "object_upload" (.completeUpload "b" "k" "u" [⟨1, none⟩, ⟨2, none⟩])).run _ = _
  rw [run_send_of_reply single (reaches_further rfl rfl rfl rfl), refused]
  rfl

end TwoParts

theorem upload_ends_iff_of_unreadable :
    let source : Source := ⟨uploadThreshold + 1, fun _ _ => .error .interrupted⟩
    let run := (TwoParts.account.upload "b" "k" source).run ⟨TwoParts.files, [TwoParts.opened], []⟩
    ∃ sent, run.2.exchanges = [] ++ sent ∧
      ∀ id, (∃ e ∈ sent, e.Opens "b" "k" id) →
        (EndsUpload "b" "k" id run.1 sent ↔
          id ≠ "" ∧ ∀ e ∈ sent, e.Completes "b" "k" id → e.isSuccess = true) := by
  intro source run
  have single : TwoParts.account.settings.maxAttempts ≤ 1 := by decide
  have large : uploadThreshold < source.size := Nat.lt_succ_self _
  have h : (TwoParts.account.upload "b" "k" source).run ⟨TwoParts.files, [TwoParts.opened], []⟩ = (run.1, run.2) := rfl
  exact upload_ends_iff single large (Or.inl h)

/-- A completion that fails leaves its upload open: the run fails, and no abortion is sent. -/
theorem upload_left_open_by_failed_completion :
    ¬ ∀ (a : Account) (bucket key path : String) (entry : FileEntry) (c after : Conversation)
        (outcome : Except Error Unit), a.settings.maxAttempts ≤ 1 → c.files.get path = .ok entry →
      uploadThreshold < (Source.ofEntry entry).size → (a.objectUpload bucket key path).run c = (outcome, after) →
        ∃ sent, after.exchanges = c.exchanges ++ sent ∧
          ∀ id, (∃ e ∈ sent, e.Opens bucket key id) → EndsUpload bucket key id outcome sent := by
  intro always
  obtain ⟨sent, appended, ends⟩ := always TwoParts.account "b" "k" "big" TwoParts.entry _ _ _
    (by decide) rfl (Nat.lt_succ_self _) TwoParts.run_objectUpload_eq
  cases appended
  rcases ends "u" ⟨_, List.mem_cons_self, TwoParts.opens_create⟩ with ⟨ok, -⟩ | ⟨-, lead, e, h, aborts, -⟩
  · cases ok
  · -- the last exchange is the completion
    have last := congrArg List.getLast? h
    rw [List.getLast?_concat] at last
    cases last
    cases aborts

end Account

end BucketBench
