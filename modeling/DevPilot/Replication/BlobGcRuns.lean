import DevPilot.Replication.BlobGc

/-!
What the collector deletes while jobs come and go.
-/

namespace DevPilot.Replication

open PyJson FileTree Runs

variable {F : Type}

def ReplicationFiles.Active (f : ReplicationFiles F) (job : String) : Prop :=
  ∃ r, f.jobs.lookup job = some (some r) ∧ r.isTerminal = false

/-- The baseline store would load the file at `path`, and it names the blob. -/
def ReplicationFiles.References (f : ReplicationFiles F) (accepts : Json F → Bool)
    (path : List String) (digest : String) : Prop :=
  path.getLast? = some "baseline.json" ∧ isSha256Digest digest = true ∧
    ∃ v entries, f.relationships.lookup path = some (some v) ∧ loadBaseline accepts v = some entries ∧
      digest ∈ referencedBlobs entries

namespace BlobSystem

variable (accepts : Json F → Bool)

/-- An active job has found the blob present and not applied it, or a baseline
names it. -/
def Protected (s : BlobSystem F) (digest : String) : Prop :=
  (∃ job, s.files.Active job ∧ (job, digest) ∈ s.present) ∨
    ∃ path, s.files.References accepts path digest

end BlobSystem

namespace CasGc

def victim (g : CasGc) : Option UnreferencedBlob :=
  match g.phase with
  | .deleting (blob :: _) => some blob
  | _ => none

/-- The call will see that the job is active, or knows the blob as referenced. -/
def Counts (g : CasGc) (job digest : String) : Prop :=
  match g.phase with
  | .listingJobs | .finished _ => True
  | .checkingJobs todo => job ∈ todo
  | _ => digest ∈ g.referencedDigests

/-- The call will come to the file, or knows the blob as referenced. -/
def Finds (g : CasGc) (path : List String) (digest : String) : Prop :=
  match g.phase with
  | .listingJobs | .checkingJobs _ | .finished _ => True
  | .collecting todo => (∃ e ∈ todo, e.Covers path) ∨ digest ∈ g.referencedDigests
  | _ => digest ∈ g.referencedDigests

def listed (g : CasGc) : List UnreferencedBlob :=
  match g.phase with
  | .statting _ unreferenced _ => unreferenced
  | .deleting condemned => condemned
  | _ => []

end CasGc

namespace BlobSystem

variable (accepts : Json F → Bool)

def Spares (s : BlobSystem F) : BlobEvent F → Prop
  | .advance i => ∀ g ∈ s.gcs[i]?, ∀ blob ∈ g.victim, ¬s.Protected accepts blob.digest
  | _ => True

/-- Jobs and baselines do not come to rely on a blob behind the back of a call:
a job that it has passed over finds no blob present, and becomes active again
with none, that it does not know as referenced; likewise a baseline that is
saved where it has been already, or whose read fails. -/
def Expected (s : BlobSystem F) : BlobEvent F → Prop
  | .negotiate job digest =>
      s.files.Active job → s.contains digest = true → ∀ g ∈ s.gcs, g.Counts job digest
  | .writeJob job content =>
      (∃ r, content = some r ∧ r.isTerminal = false) →
        ∀ digest, (job, digest) ∈ s.present → ∀ g ∈ s.gcs, g.Counts job digest
  | .saveFile path content =>
      ∀ digest, (s.step (.saveFile path content)).files.References accepts path digest →
        ∀ g ∈ s.gcs, g.Finds path digest
  | .fail i =>
      ∀ g ∈ s.gcs[i]?, ∀ path todo, g.phase = .collecting (.file path :: todo) →
        ∀ digest, s.files.References accepts path digest → digest ∈ g.referencedDigests
  | _ => True

end BlobSystem

structure CasGc.Accounts (accepts : Json F → Bool) (s : BlobSystem F) (g : CasGc) : Prop where
  counts : ∀ job digest, s.files.Active job → (job, digest) ∈ s.present → g.Counts job digest
  finds : ∀ path digest, s.files.References accepts path digest → g.Finds path digest
  listed : ∀ blob ∈ g.listed, blob.digest ∉ g.referencedDigests

namespace CasGc

variable {accepts : Json F → Bool} {s : BlobSystem F} {g : CasGc}

theorem Accounts.not_protected (h : g.Accounts accepts s) {blob : UnreferencedBlob}
    (hvictim : g.victim = some blob) : ¬s.Protected accepts blob.digest := by
  obtain ⟨options, phase, referencedDigests, removedDigests⟩ := g
  cases phase with
  | deleting condemned =>
      cases condemned with
      | nil => cases hvictim
      | cons b condemned =>
          obtain rfl := Option.some.inj hvictim
          have hlisted := h.listed b List.mem_cons_self
          rintro (⟨job, hactive, hpresent⟩ | ⟨path, hpath⟩)
          · exact hlisted (h.counts job _ hactive hpresent)
          · exact hlisted (h.finds path _ hpath)
  | _ => cases hvictim

end CasGc

theorem referencedDigest_of_parse {v : Json F} {relativePath digest : String}
    (h : parseManifestEntry v = some (.file relativePath digest))
    (hsha : isSha256Digest digest = true) : referencedDigest v = some digest := by
  rw [parseManifestEntry] at h
  obtain ⟨path, -, h⟩ := Option.bind_eq_some_iff.mp h
  obtain ⟨kind, hkind, h⟩ := Option.bind_eq_some_iff.mp h
  split at h
  · cases h
  · obtain ⟨d, hd, h⟩ := Option.bind_eq_some_iff.mp h
    obtain ⟨rfl, rfl⟩ := ManifestEntry.file.inj (Option.some.inj h)
    rw [referencedDigest, if_pos hkind, hd, Option.filter_some, if_pos hsha]
  · obtain ⟨target, -, h⟩ := Option.bind_eq_some_iff.mp h
    cases h
  · cases h

theorem mem_filterMap_referencedDigest {items : List (Json F)} {entries : List ManifestEntry}
    {digest : String} (h : items.mapM parseManifestEntry = some entries)
    (hdigest : digest ∈ referencedBlobs entries) (hsha : isSha256Digest digest = true) :
    digest ∈ items.filterMap referencedDigest := by
  induction items generalizing entries with
  | nil =>
      obtain rfl := Option.some.inj h
      exact absurd hdigest List.not_mem_nil
  | cons item items ih =>
      rw [List.mapM_cons] at h
      obtain ⟨entry, hentry, h⟩ := Option.bind_eq_some_iff.mp h
      obtain ⟨rest, hrest, h⟩ := Option.bind_eq_some_iff.mp h
      obtain rfl := Option.some.inj h
      obtain ⟨e, he, hfile⟩ := List.mem_filterMap.mp hdigest
      rcases List.mem_cons.mp he with rfl | he
      · cases e with
        | file relativePath d =>
            obtain rfl := Option.some.inj hfile
            exact List.mem_filterMap.mpr
              ⟨item, List.mem_cons_self, referencedDigest_of_parse hentry hsha⟩
        | directory | symlink => cases hfile
      · obtain ⟨x, hx, hd⟩ := List.mem_filterMap.mp (ih hrest (List.mem_filterMap.mpr ⟨e, he, hfile⟩))
        exact List.mem_filterMap.mpr ⟨x, List.mem_cons_of_mem item hx, hd⟩

theorem mem_collectDigests {accepts : Json F → Bool} {v : Json F} {entries : List ManifestEntry}
    {digest : String} (h : loadBaseline accepts v = some entries)
    (hdigest : digest ∈ referencedBlobs entries) (hsha : isSha256Digest digest = true) :
    digest ∈ collectDigests v := by
  rw [loadBaseline] at h
  split at h
  · obtain ⟨items, hitems, h⟩ := Option.bind_eq_some_iff.mp h
    rw [collectDigests, hitems]
    exact mem_filterMap_referencedDigest h hdigest hsha
  · cases h

theorem mem_of_mem_takeOver {maxBytes totalBytes : Nat} {blobs : List UnreferencedBlob}
    {b : UnreferencedBlob} (h : b ∈ takeOver maxBytes totalBytes blobs) : b ∈ blobs := by
  induction blobs generalizing totalBytes with
  | nil => exact h
  | cons b' blobs ih =>
      rw [takeOver] at h
      split at h
      · cases h
      · rcases List.mem_cons.mp h with rfl | h
        · exact List.mem_cons_self
        · exact List.mem_cons_of_mem b' (ih h)

theorem mem_of_mem_ttlCandidates {o : GcOptions} {blobs : List UnreferencedBlob}
    {b : UnreferencedBlob} (h : b ∈ ttlCandidates o blobs) : b ∈ blobs := by
  rw [ttlCandidates] at h
  split at h
  · exact (List.mem_filter.mp ((List.mem_insertionSort _).mp h)).1
  · cases h

theorem mem_of_mem_condemn {o : GcOptions} {blobs : List UnreferencedBlob} {totalBytes : Nat}
    {b : UnreferencedBlob} (h : b ∈ condemn o blobs totalBytes) : b ∈ blobs := by
  rw [condemn] at h
  split at h
  · split at h
    · rcases List.mem_append.mp h with h | h
      · exact mem_of_mem_ttlCandidates h
      · exact (List.mem_filter.mp ((List.mem_insertionSort _).mp (mem_of_mem_takeOver h))).1
    · exact mem_of_mem_ttlCandidates h
  · exact mem_of_mem_ttlCandidates h

namespace CasGc

variable {accepts : Json F → Bool} {s s' : BlobSystem F} {g : CasGc}

theorem step_files (f : ReplicationFiles F) (g : CasGc) :
    (g.step f).1.jobs = f.jobs ∧ (g.step f).1.relationships = f.relationships := by
  rw [step]
  repeat' split
  all_goals exact ⟨rfl, rfl⟩

theorem Accounts.congr (hjobs : s'.files.jobs = s.files.jobs)
    (hrelationships : s'.files.relationships = s.files.relationships)
    (hpresent : s'.present = s.present) (h : g.Accounts accepts s) : g.Accounts accepts s' := by
  refine ⟨fun job digest hactive hp => ?_, fun path digest hreferences => ?_, h.listed⟩
  · rw [ReplicationFiles.Active, hjobs] at hactive
    exact h.counts job digest hactive (hpresent ▸ hp)
  · rw [ReplicationFiles.References, hrelationships] at hreferences
    exact h.finds path digest hreferences

theorem accounts_finished {skipped : Bool} {o : GcOptions} {referenced removed : List String} :
    Accounts accepts s ⟨o, .finished skipped, referenced, removed⟩ :=
  ⟨fun _ _ _ _ => trivial, fun _ _ _ => trivial, fun _ h => absurd h List.not_mem_nil⟩

theorem Accounts.advance_checkingJobs {o : GcOptions} {job : String} {todo referenced removed : List String}
    (h : Accounts accepts s ⟨o, .checkingJobs (job :: todo), referenced, removed⟩) :
    (step s.files ⟨o, .checkingJobs (job :: todo), referenced, removed⟩).2.Accounts accepts s := by
  rw [step]
  dsimp only
  split
  · exact accounts_finished
  · rename_i record hrecord
    split
    · rename_i hterminal
      refine ⟨fun job' digest hactive hpresent => ?_, fun _ _ _ => trivial,
        fun _ h => absurd h List.not_mem_nil⟩
      refine (List.mem_cons.mp (h.counts job' digest hactive hpresent)).resolve_left ?_
      rintro rfl
      -- The record read is terminal, so the job is not active.
      obtain ⟨r, hr, hopen⟩ := hactive
      rw [hr] at hrecord
      obtain rfl := Option.some.inj hrecord
      rw [hopen] at hterminal
      cases hterminal
    · exact accounts_finished

theorem Accounts.advance_file {o : GcOptions} {p : List String} {todo : List (Pending String)}
    {referenced removed : List String}
    (h : Accounts accepts s ⟨o, .collecting (.file p :: todo), referenced, removed⟩) :
    (step s.files ⟨o, .collecting (.file p :: todo), referenced, removed⟩).2.Accounts accepts s := by
  refine ⟨fun job digest hactive hpresent => ?_, fun path digest hreferences => ?_,
    fun _ h => absurd h List.not_mem_nil⟩
  · exact List.mem_append_left _ (h.counts job digest hactive hpresent)
  · rcases h.finds path digest hreferences with ⟨e, he, hcovers⟩ | hreferenced
    · rcases List.mem_cons.mp he with rfl | he
      · obtain rfl : p = path := hcovers
        obtain ⟨hname, hsha, v, entries, hv, hload, hdigest⟩ := hreferences
        refine .inr (List.mem_append_right _ ?_)
        rw [if_pos hname, hv]
        exact mem_collectDigests hload hdigest hsha
      · exact .inl ⟨e, he, hcovers⟩
    · exact .inr (List.mem_append_left _ hreferenced)

theorem Accounts.advance_directory {o : GcOptions} {p : List String} {todo : List (Pending String)}
    {referenced removed : List String}
    (h : Accounts accepts s ⟨o, .collecting (.directory p :: todo), referenced, removed⟩) :
    (step s.files ⟨o, .collecting (.directory p :: todo), referenced, removed⟩).2.Accounts accepts s := by
  refine ⟨h.counts, fun path digest hreferences => ?_, fun _ h => absurd h List.not_mem_nil⟩
  rcases h.finds path digest hreferences with ⟨e, he, hcovers⟩ | hreferenced
  · refine .inl ?_
    rcases List.mem_cons.mp he with rfl | he
    · obtain ⟨-, -, v, -, hv, -⟩ := hreferences
      have hfile : path ∈ s.files.relationships := AList.lookup_isSome.mp (hv ▸ rfl)
      obtain ⟨e, he, hcovers⟩ := covers_visits hfile hcovers
      exact ⟨e, List.mem_append_left _ he, hcovers⟩
    · exact ⟨e, List.mem_append_right _ he, hcovers⟩
  · exact .inr hreferenced

theorem Accounts.advance_candidate {o : GcOptions} {candidate : BlobCandidate}
    {todo : List BlobCandidate} {unreferenced : List UnreferencedBlob} {totalBytes : Nat}
    {referenced removed : List String}
    (h : Accounts accepts s ⟨o, .statting (candidate :: todo) unreferenced totalBytes, referenced, removed⟩) :
    (step s.files ⟨o, .statting (candidate :: todo) unreferenced totalBytes, referenced, removed⟩).2.Accounts
      accepts s := by
  rw [step]
  dsimp only
  split
  · exact ⟨h.counts, h.finds, h.listed⟩
  · refine ⟨h.counts, h.finds, fun blob hblob => ?_⟩
    change blob ∈ (if _ then _ else _) at hblob
    split at hblob
    · exact h.listed blob hblob
    · rename_i hfresh
      rcases List.mem_append.mp hblob with hblob | hblob
      · exact h.listed blob hblob
      · obtain rfl := List.mem_singleton.mp hblob
        exact hfresh

theorem Accounts.advance (h : g.Accounts accepts s) : (g.step s.files).2.Accounts accepts s := by
  obtain ⟨o, phase, referenced, removed⟩ := g
  cases phase with
  | listingJobs =>
      refine ⟨fun job digest hactive _ => ?_, fun _ _ _ => trivial, fun _ h => absurd h List.not_mem_nil⟩
      obtain ⟨r, hr, -⟩ := hactive
      exact AList.mem_keys.mp (AList.lookup_isSome.mp (hr ▸ rfl))
  | checkingJobs todo =>
      cases todo with
      | nil =>
          refine ⟨fun job digest hactive hpresent => ?_, fun path digest hreferences => ?_,
            fun _ h => absurd h List.not_mem_nil⟩
          · exact absurd (h.counts job digest hactive hpresent) List.not_mem_nil
          · refine .inl ⟨.directory [], List.mem_singleton_self _, List.nil_prefix, ?_⟩
            rintro rfl
            cases hreferences.1
      | cons job todo => exact h.advance_checkingJobs
  | collecting todo =>
      cases todo with
      | nil =>
          refine ⟨h.counts, fun path digest hreferences => ?_, fun _ h => absurd h List.not_mem_nil⟩
          exact (h.finds path digest hreferences).resolve_left fun ⟨e, he, _⟩ => List.not_mem_nil he
      | cons e todo =>
          cases e with
          | directory p => exact h.advance_directory
          | file p => exact h.advance_file
  | listingCas => exact ⟨h.counts, h.finds, fun _ h => absurd h List.not_mem_nil⟩
  | listingShards todo candidates =>
      cases todo <;> exact ⟨h.counts, h.finds, fun _ h => absurd h List.not_mem_nil⟩
  | statting todo unreferenced totalBytes =>
      cases todo with
      | nil => exact ⟨h.counts, h.finds, fun blob hblob => h.listed blob (mem_of_mem_condemn hblob)⟩
      | cons candidate todo => exact h.advance_candidate
  | deleting condemned =>
      cases condemned with
      | nil => exact accounts_finished
      | cons blob condemned =>
          exact ⟨h.counts, h.finds, fun b hb => h.listed b (List.mem_cons_of_mem blob hb)⟩
  | finished skipped => exact h

theorem Accounts.fail (h : g.Accounts accepts s)
    (hfile : ∀ path todo, g.phase = .collecting (.file path :: todo) →
      ∀ digest, s.files.References accepts path digest → digest ∈ g.referencedDigests) :
    g.fail.Accounts accepts s := by
  obtain ⟨o, phase, referenced, removed⟩ := g
  cases phase with
  | listingJobs | listingCas => exact accounts_finished
  | checkingJobs todo =>
      cases todo with
      | nil => exact h
      | cons job todo => exact accounts_finished
  | collecting todo =>
      cases todo with
      | nil => exact h
      | cons e todo =>
          cases e with
          | directory p => exact accounts_finished
          | file p =>
              refine ⟨h.counts, fun path digest hreferences => ?_, fun _ h => absurd h List.not_mem_nil⟩
              rcases h.finds path digest hreferences with ⟨e, he, hcovers⟩ | hreferenced
              · rcases List.mem_cons.mp he with rfl | he
                · obtain rfl : p = path := hcovers
                  exact .inr (hfile p todo rfl digest hreferences)
                · exact .inl ⟨e, he, hcovers⟩
              · exact .inr hreferenced
  | listingShards todo candidates =>
      cases todo with
      | nil => exact h
      | cons entry todo => exact accounts_finished
  | statting todo unreferenced totalBytes =>
      cases todo with
      | nil => exact h
      | cons candidate todo => exact ⟨h.counts, h.finds, h.listed⟩
  | deleting condemned =>
      cases condemned with
      | nil => exact h
      | cons blob condemned =>
          exact ⟨h.counts, h.finds, fun b hb => h.listed b (List.mem_cons_of_mem blob hb)⟩
  | finished skipped => exact h

end CasGc

namespace BlobSystem

variable {accepts : Json F → Bool} {s : BlobSystem F}

def Accounted (accepts : Json F → Bool) (s : BlobSystem F) : Prop := ∀ g ∈ s.gcs, g.Accounts accepts s

theorem accounted_writeJob (h : s.Accounted accepts) (job : String) (content : Option JobRecord)
    (he : s.Expected accepts (.writeJob job content)) :
    (s.step (.writeJob job content)).Accounted accepts := by
  intro g hg
  refine ⟨fun job' digest hactive hpresent => ?_, (h g hg).finds, (h g hg).listed⟩
  obtain ⟨r, hr, hopen⟩ := hactive
  by_cases hjob : job' = job
  · subst hjob
    have hwritten : (s.files.jobs.insert job' content).lookup job' = some content :=
      AList.lookup_insert _
    exact he ⟨r, Option.some.inj (hwritten.symm.trans hr), hopen⟩ digest hpresent g hg
  · exact (h g hg).counts job' digest ⟨r, (AList.lookup_insert_ne hjob).symm.trans hr, hopen⟩ hpresent

theorem accounted_removeJob (h : s.Accounted accepts) (job : String) :
    (s.step (.removeJob job)).Accounted accepts := by
  intro g hg
  refine ⟨fun job' digest hactive hpresent => ?_, (h g hg).finds, (h g hg).listed⟩
  obtain ⟨r, hr, hopen⟩ := hactive
  by_cases hjob : job' = job
  · subst hjob
    cases (AList.lookup_erase _ _).symm.trans hr
  · exact (h g hg).counts job' digest ⟨r, (AList.lookup_erase_ne hjob).symm.trans hr, hopen⟩ hpresent

theorem accounted_negotiate (h : s.Accounted accepts) (job digest : String)
    (he : s.Expected accepts (.negotiate job digest)) :
    (s.step (.negotiate job digest)).Accounted accepts := by
  rw [step]
  by_cases hcontains : s.contains digest = true
  · rw [if_pos hcontains]
    intro g hg
    refine ⟨fun job' digest' hactive hpresent => ?_, (h g hg).finds, (h g hg).listed⟩
    rcases List.mem_cons.mp hpresent with heq | hpresent
    · obtain ⟨rfl, rfl⟩ := Prod.mk.inj heq
      exact he hactive hcontains g hg
    · exact (h g hg).counts job' digest' hactive hpresent
  · rwa [if_neg hcontains]

theorem accounted_saveFile (h : s.Accounted accepts) (path : List String)
    (content : Option (Json F)) (he : s.Expected accepts (.saveFile path content)) :
    (s.step (.saveFile path content)).Accounted accepts := by
  intro g hg
  refine ⟨(h g hg).counts, fun path' digest hreferences => ?_, (h g hg).listed⟩
  by_cases hpath : path' = path
  · subst hpath
    exact he digest hreferences g hg
  · obtain ⟨hname, hsha, v, entries, hv, hrest⟩ := hreferences
    exact (h g hg).finds path' digest
      ⟨hname, hsha, v, entries, (AList.lookup_insert_ne hpath).symm.trans hv, hrest⟩

theorem accounted_advance (h : s.Accounted accepts) (i : Nat) :
    (s.step (.advance i)).Accounted accepts := by
  rw [step]
  split
  · exact h
  · rename_i g hg
    obtain ⟨hjobs, hrelationships⟩ := g.step_files s.files
    intro g' hg'
    refine CasGc.Accounts.congr (s := s) hjobs hrelationships rfl ?_
    rcases List.mem_or_eq_of_mem_set hg' with hg' | rfl
    · exact h g' hg'
    · exact (h g (List.mem_of_getElem? hg)).advance

theorem accounted_fail (h : s.Accounted accepts) (i : Nat) (he : s.Expected accepts (.fail i)) :
    (s.step (.fail i)).Accounted accepts := by
  rw [step]
  split
  · exact h
  · rename_i g hg
    intro g' hg'
    refine CasGc.Accounts.congr (s := s) rfl rfl rfl ?_
    rcases List.mem_or_eq_of_mem_set hg' with hg' | rfl
    · exact h g' hg'
    · exact (h g (List.mem_of_getElem? hg)).fail (he g hg)

theorem accounted_step (s : BlobSystem F) (e : BlobEvent F) (h : s.Accounted accepts)
    (he : s.Expected accepts e) : (s.step e).Accounted accepts := by
  cases e with
  | writeJob job content => exact accounted_writeJob h job content he
  | removeJob job => exact accounted_removeJob h job
  | negotiate job digest => exact accounted_negotiate h job digest he
  | applied job =>
      intro g hg
      refine ⟨fun job' digest hactive hpresent => ?_, (h g hg).finds, (h g hg).listed⟩
      exact (h g hg).counts job' digest hactive (List.mem_of_mem_filter hpresent)
  | saveFile path content => exact accounted_saveFile h path content he
  | commitBlob path info => exact fun g hg => ⟨(h g hg).counts, (h g hg).finds, (h g hg).listed⟩
  | startGc o =>
      intro g hg
      rcases List.mem_append.mp hg with hg | hg
      · exact ⟨(h g hg).counts, (h g hg).finds, (h g hg).listed⟩
      · obtain rfl := List.mem_singleton.mp hg
        exact ⟨fun _ _ _ _ => trivial, fun _ _ _ => trivial, fun _ h => absurd h List.not_mem_nil⟩
  | advance i => exact accounted_advance h i
  | fail i => exact accounted_fail h i he

theorem spares_of_accounted (s : BlobSystem F) (e : BlobEvent F) (h : s.Accounted accepts) :
    s.Spares accepts e := by
  cases e with
  | advance i => exact fun g hg blob hblob => (h g (List.mem_of_getElem? hg)).not_protected hblob
  | _ => trivial

/-- In every run of collectors and jobs in which nobody comes to rely on a blob
behind the back of a collector, no protected blob is deleted. -/
theorem gc_spares (accepts : Json F → Bool) (s : BlobSystem F) (hs : s.gcs = [])
    (events : List (BlobEvent F)) (h : Along step (Expected accepts) s events) :
    Along step (Spares accepts) s events := by
  have hstart : s.Accounted accepts := by
    intro g hg
    rw [hs] at hg
    cases hg
  exact along_of_along (fun s e hs _ => spares_of_accounted s e hs) accounted_step hstart h

/-! Runs with one stored blob that nobody references -/

def storedHex : String := String.ofList (List.replicate 64 '0')

def oneBlob : BlobSystem Unit where
  files := { cas := AList.singleton ["00", storedHex] ⟨1, 0⟩ }

def gcOptions : GcOptions := { nowMs := 10, unreferencedTtlMs := 5 }

def startedRecord : JobRecord where
  jobId := "job_1"
  createdAtMs := 9
  updatedAtMs := 9
  status := { status := .inProgress, phase := .planning, checkpoint := .relationshipResolved }

theorem gc_spares_before_job :
    Along step (Spares fun _ => true) oneBlob
      (.startGc gcOptions :: List.replicate 11 (.advance 0) ++
        [.writeJob "job_1" (some startedRecord), .negotiate "job_1" (sha256Digest storedHex)]) := by
  refine gc_spares (fun _ => true) oneBlob rfl _ ?_
  refine ⟨trivial, trivial, trivial, trivial, trivial, trivial, trivial, trivial, trivial, trivial,
    trivial, trivial, fun _ digest hpresent => ?_, fun _ hcontains => ?_, trivial⟩
  · cases hpresent
  · exact absurd hcontains (by decide)

def beforeDeletion : List (BlobEvent Unit) :=
  .startGc gcOptions :: List.replicate 9 (.advance 0) ++
    [.writeJob "job_1" (some startedRecord), .negotiate "job_1" (sha256Digest storedHex)]

theorem negotiated_blob_deleted :
    let s := run step oneBlob beforeDeletion
    s.files.Active "job_1" ∧ ("job_1", sha256Digest storedHex) ∈ s.present ∧
      (s.gcs[0]?.bind CasGc.victim).map UnreferencedBlob.digest = some (sha256Digest storedHex) ∧
      ¬Along step (Spares fun _ => true) oneBlob (beforeDeletion ++ [BlobEvent.advance 0]) := by
  have hactive : (run step oneBlob beforeDeletion).files.Active "job_1" := ⟨startedRecord, rfl, rfl⟩
  obtain ⟨hpresent, hvictim⟩ :
      ("job_1", sha256Digest storedHex) ∈ (run step oneBlob beforeDeletion).present ∧
      ((run step oneBlob beforeDeletion).gcs[0]?.bind CasGc.victim).map UnreferencedBlob.digest =
        some (sha256Digest storedHex) := by
    decide
  refine ⟨hactive, hpresent, hvictim, fun h => ?_⟩
  obtain ⟨blob, hblob, hdigest⟩ := Option.map_eq_some_iff.mp hvictim
  obtain ⟨g, hg, hblob⟩ := Option.bind_eq_some_iff.mp hblob
  refine along_append_singleton h g hg blob hblob (.inl ⟨"job_1", hactive, ?_⟩)
  rwa [hdigest]

end BlobSystem

end DevPilot.Replication
