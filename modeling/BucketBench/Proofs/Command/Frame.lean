import BucketBench.Proofs.Command.Show
import BucketBench.Proofs.Store.Agreement

set_option autoImplicit false

namespace BucketBench

theorem Collection.documents_insert (c : Collection) (d : Document) :
    ∃ e, (c.insert d).2.documents = c.documents ++ [e] := by
  unfold insert
  split <;> exact ⟨_, rfl⟩

namespace Server

variable {s after : Server}

theorem documents_of_insertOne {d : Document} {id : Value} (h : s.insertOne d = .ok (id, after)) :
    ∃ e, after.collection.documents = s.collection.documents ++ [e] := by
  obtain ⟨carried, -, h⟩ := bind_eq_ok_iff.1 h
  obtain ⟨_, -, h⟩ := bind_eq_ok_iff.1 h
  cases h
  exact Collection.documents_insert ⟨s.collection.documents, (s.named carried).2⟩ (s.named carried).1

theorem insertOne_of_perform {d : Document} {answer : StoreAnswer}
    (h : s.perform (.insertOne d) = (.ok answer, after)) : ∃ id, s.insertOne d = .ok (id, after) := by
  rw [perform] at h
  split at h
  · cases h
    exact ⟨_, ‹_›⟩
  · cases h

theorem updateMany_of_perform {filter update : Document} {answer : StoreAnswer}
    (h : s.perform (.updateMany filter update) = (.ok answer, after)) :
    ∃ summary, s.updateMany filter update = .ok (summary, after) := by
  rw [perform] at h
  split at h
  · cases h
    exact ⟨_, ‹_›⟩
  · cases h

theorem run_of_updateMany {filter update : Document} {summary : UpdateSummary}
    (h : s.updateMany filter update = .ok (summary, after)) :
    ∃ sought carried, wire filter = .ok sought ∧
      (Collection.updateMany sought carried).run s.collection = (.ok summary, after.collection) := by
  obtain ⟨sought, wired, h⟩ := bind_eq_ok_iff.1 h
  obtain ⟨carried, -, h⟩ := bind_eq_ok_iff.1 h
  refine ⟨sought, carried, wired, ?_⟩
  simp only at h
  split at h
  · cases h
  · obtain ⟨_, -, h⟩ := bind_eq_ok_iff.1 h
    split at h
    · cases h
      assumption
    · cases h

end Server

namespace Command

variable {w : World} {settings : Settings}

def isReadOnly : Command → Bool
  | .updateConfig _ _ _ | .timings _ (.record _) => false
  | .showConfig _ | .encrypt _ | .decrypt _ | .timings _ _ | .version => true

theorem settle_keeps_server (context : String) (inquiry : TestConfig.Inquiry) :
    (settle context inquiry).Keeps Database.server := by
  intro db
  cases inquiry with
  | answered => rfl
  | asks query next =>
    rw [run_settle_asks, snd_listing]
    rfl

theorem runShow_keeps_server (r : TestConfig.Request) : (runShow w settings r).Keeps Database.server := by
  have shows : ∀ inquiry, (settle "Failed to read configuration" inquiry >>= fun merged =>
      pure (Output.line (Json.pretty (.object merged)))).Keeps Database.server := fun inquiry =>
    (settle_keeps_server _ inquiry).bind fun _ => .pure _ _
  cases needed : needsDatabase w settings.paths.setupsFile r with
  | false =>
    simp only [runShow, needed, Bool.false_eq_true, if_false]
    exact shows _
  | true =>
    simp only [runShow, needed, if_true]
    exact (Session.Keeps.connect _ _ _).bind fun _ => shows _

theorem isQuestion_of_timingsCall {now : Timestamp} {c : TimingsCommand} {context : String} {call : StoreCall}
    (readOnly : ∀ m, c ≠ .record m) (h : timingsCall now c = .ok (context, call)) : call.isQuestion = true := by
  cases c with
  | record m => exact absurd rfl (readOnly m)
  | find | count | distinct =>
    obtain ⟨filter, -, h⟩ := bind_eq_ok_iff.1 h
    cases h
    rfl

theorem run_keeps_server {cmd : Command} (readOnly : cmd.isReadOnly = true) :
    (run w settings cmd).Keeps Database.server := by
  cases cmd with
  | showConfig r => exact runShow_keeps_server r
  | updateConfig => cases readOnly
  | encrypt | decrypt => exact .bind (.lift _ _) fun _ => .pure _ _
  | version => exact .lift _ _
  | timings format c =>
    refine (Session.Keeps.connect _ _ _).bind fun _ => Session.Keeps.lift_bind ?_
    rintro ⟨context, call⟩ asks
    have question : call.isQuestion = true := isQuestion_of_timingsCall (by rintro m rfl; cases readOnly) asks
    exact (Session.Keeps.request context question).bind fun _ => .pure _ _

theorem run_atomic (w : World) (settings : Settings) (cmd : Command) : (run w settings cmd).Atomic := by
  cases cmd with
  | showConfig | encrypt | decrypt | version => exact (run_keeps_server rfl).atomic
  | updateConfig setup assignments removals =>
    refine .bind (.lift _ _) fun update => .bind (.connect _ _ _) fun _ => ?_
    exact (Session.Atomic.request _ _).map _
  | timings format c =>
    refine .bind (.connect _ _ _) fun _ => .bind (.lift _ _) fun asked => ?_
    exact (Session.Atomic.request _ _).map _

theorem isPlain_setupQuery (setup : String) : (TestConfig.setupQuery setup).isPlain = true := by
  rw [Document.isPlain_iff]
  intro m hm
  obtain rfl : m = _ := List.mem_singleton.1 hm
  have key : isPlainKey Setups.nameField = true := by decide
  exact ⟨key, rfl⟩

theorem runUpdate_of_rejected {setup text : String} {assignments removals : List String}
    (rejected : Assignment.update assignments removals = .error text) (db : Database) :
    (runUpdate w settings setup assignments removals).run db = (.error ⟨[], .arguments text⟩, db) := by
  rw [runUpdate, rejected]
  rfl

theorem exists_updateMany_of_runUpdate {setup printed : String} {assignments removals : List String}
    {db after : Database} (h : (runUpdate w settings setup assignments removals).run db = (.ok printed, after)) :
    ∃ update summary, (Collection.updateMany (TestConfig.setupQuery setup) update).run db.server.collection =
      (.ok summary, after.server.collection) := by
  obtain ⟨update, middle, built, h⟩ := Session.exists_of_run_bind h
  obtain ⟨-, rfl⟩ := Prod.mk.inj built
  obtain ⟨_, called, connected, h⟩ := Session.exists_of_run_bind h
  obtain ⟨answer, answered, requested, h⟩ := Session.exists_of_run_bind h
  cases h
  have performed := Session.perform_of_run_request requested
  rw [(Session.Keeps.connect _ _ _).eq_of_run connected] at performed
  obtain ⟨summary, updated⟩ := Server.updateMany_of_perform performed
  obtain ⟨sought, carried, wired, ran⟩ := Server.run_of_updateMany updated
  rw [Server.wire_eq_ok_of_isPlain (isPlain_setupQuery setup)] at wired
  cases wired
  exact ⟨carried, summary, ran⟩

theorem documents_of_record {format : OutputFormat} {m : Measurement} {printed : String} {db after : Database}
    (h : (runTimings w settings format (.record m)).run db = (.ok printed, after)) :
    ∃ d, after.server.collection.documents = db.server.collection.documents ++ [d] := by
  obtain ⟨_, called, connected, h⟩ := Session.exists_of_run_bind h
  obtain ⟨⟨context, call⟩, middle, asked, h⟩ := Session.exists_of_run_bind h
  obtain ⟨made, rfl⟩ := Prod.mk.inj asked
  obtain ⟨record, -, made⟩ := bind_eq_ok_iff.1 made
  cases made
  obtain ⟨answer, answered, requested, h⟩ := Session.exists_of_run_bind h
  cases h
  have performed := Session.perform_of_run_request requested
  rw [(Session.Keeps.connect _ _ _).eq_of_run connected] at performed
  obtain ⟨id, inserted⟩ := Server.insertOne_of_perform performed
  exact Server.documents_of_insertOne inserted

/-- A document that an update passes over stays in its place. -/
theorem kept_of_runUpdate {setup printed : String} {assignments removals : List String} {db after : Database}
    (h : (runUpdate w settings setup assignments removals).run db = (.ok printed, after)) :
    after.server.collection.documents.length = db.server.collection.documents.length ∧
      ∀ (i : Nat) (d : Document), db.server.collection.documents[i]? = some d →
        Document.matchesFilter (TestConfig.setupQuery setup) d = false →
          after.server.collection.documents[i]? = some d := by
  obtain ⟨update, summary, ran⟩ := exists_updateMany_of_runUpdate h
  obtain ⟨-, -, stored⟩ := Collection.of_updateMany_eq_ok ran
  rw [stored]
  refine ⟨List.length_map _, fun i d found passed => ?_⟩
  rw [List.getElem?_map, found, Option.map_some, Collection.edited_of_not_matches passed]

/-- A command that fails leaves the server as it was, and so does one that only reads. A timing that was recorded is one
more document at the end; an update of a setup keeps all documents in their places and alters only those of its name, and
when its arguments make no update the database is not even called. -/
theorem run_frames (w : World) (settings : Settings) (cmd : Command) (db after : Database)
    (outcome : Except Failure String) (h : (run w settings cmd).run db = (outcome, after)) :
    ((∃ failure, outcome = .error failure) → after.server = db.server) ∧
      (cmd.isReadOnly = true → after.server = db.server) ∧
      (∀ format m, cmd = .timings format (.record m) → (∃ printed, outcome = .ok printed) →
        ∃ d, after.server.collection.documents = db.server.collection.documents ++ [d]) ∧
      ∀ setup assignments removals, cmd = .updateConfig setup assignments removals →
        ((∃ printed, outcome = .ok printed) →
          after.server.collection.documents.length = db.server.collection.documents.length ∧
            ∀ (i : Nat) (d : Document), db.server.collection.documents[i]? = some d →
              Document.matchesFilter [("setupname", .string setup)] d = false →
                after.server.collection.documents[i]? = some d) ∧
        ∀ text, Assignment.update assignments removals = .error text →
          outcome = .error ⟨[], .arguments text⟩ ∧ after = db := by
  refine ⟨?_, fun readOnly => (run_keeps_server readOnly).eq_of_run h, ?_, ?_⟩
  · rintro ⟨failure, rfl⟩
    have atomic := run_atomic w settings cmd db failure
    rw [h] at atomic
    exact atomic rfl
  · rintro format m rfl ⟨printed, rfl⟩
    exact documents_of_record h
  · rintro setup assignments removals rfl
    refine ⟨?_, fun text rejected => ?_⟩
    · rintro ⟨printed, rfl⟩
      exact kept_of_runUpdate h
    · have fails : (run w settings (.updateConfig setup assignments removals)).run db = _ :=
        runUpdate_of_rejected rejected db
      cases h.symm.trans fails
      exact ⟨rfl, rfl⟩

theorem resolves_labKeeper : Connection.Resolves {} (Settings.vault {} labKeeper) "qa" "pw" := by
  have user : labCredentials.bytes? "S3QA_DB_USER" = some (Bytes.ofText "qa") := by rfl
  have password : labCredentials.bytes? "S3QA_DB_PASSWORD" = some (Bytes.ofText "pw") := by rfl
  constructor
  · show (SecretProvider.environment labCredentials "S3QA_").secret "DB_USER" = _
    simp [SecretProvider.environment, Environment.text?, user, Bytes.text?_ofText]
  · show (SecretProvider.environment labCredentials "S3QA_").secret "DB_PASSWORD" = _
    simp [SecretProvider.environment, Environment.text?, password, Bytes.text?_ofText]

/-- An update of one of two labs changes that one and not the other. -/
theorem run_frames_labs :
    let desk : Document := [("_id", .int 1), ("setupname", .string "desk")]
    let labs : Database :=
      ⟨⟨⟨[desk, [("_id", .int 2), ("setupname", .string "lab")]], Collection.numbered⟩, []⟩, fun _ => true, []⟩
    let after : Database :=
      ⟨⟨⟨[desk, [("_id", .int 2), ("setupname", .string "lab"), ("nodes", .int 5)]], Collection.numbered⟩, []⟩,
        fun _ => true, [Login.uri ⟨"qa", "pw", "localhost:27017"⟩]⟩
    (run labKeeper {} (.updateConfig "lab" ["nodes=5"] [])).run labs = (.ok "matched: 1, modified: 1\n", after) ∧
      after.server.collection.documents[0]? = some desk := by
  intro desk labs after
  have built : Assignment.update ["nodes=5"] [] = .ok [("$set", .object [("nodes", .int 5)])] := by cbv
  have connected : (Session.connect "Failed to connect to the setups database" {} (Settings.vault {} labKeeper)).run labs =
      _ := run_connect_of_admitted _ resolves_labKeeper (by rfl) (by rfl)
  have ran : (run labKeeper {} (.updateConfig "lab" ["nodes=5"] [])).run labs =
      (.ok "matched: 1, modified: 1\n", after) := by
    simp only [run, runUpdate, built]
    rw [Session.run_bind, Session.run_lift]
    simp only [Failure.ofArguments, mapError_ok]
    rw [Session.run_bind, connected]
    rfl
  obtain ⟨-, -, -, update⟩ := run_frames labKeeper {} _ labs after _ ran
  obtain ⟨passed, -⟩ := update _ _ _ rfl
  exact ⟨ran, (passed ⟨_, rfl⟩).2 0 desk rfl (by decide)⟩

end Command

theorem Invocation.run_atomic (w : World) (i : Invocation) : (i.run w).Atomic := by
  unfold run
  split
  · exact Command.run_atomic w {} .version
  · exact .bind (.lift _ _) fun settings => Command.run_atomic w settings _

end BucketBench
