import Axo.Data.StreamRequests

/-!
# The quota of a bucket

Whether the datasets of a bucket stay within its quota, and whether a registration that would keep
them within it is let through, at a leader that handles `BUCKET_REGISTER`, `DATA_REGISTER`,
`DATA_DELETE` and the streams of functions, one after the other.

* `DATA_REGISTER` checks the quota with the sizes as they are, and with the record that it is to
  replace; a stream is not checked at all;
* `QuotaGuard` is what a step needs where the check does not see what counts;
* `quota_of_reach` is the result for whole runs.
-/

namespace Axo

open Transition

/-- The two registries of the leader. -/
structure QuotaNode where
  store : DataStore := {}
  buckets : BucketCatalog := ∅

/-- What the leader handles. -/
inductive QuotaAction
  | bucketRegister (envelope : DataEnvelope) (now : ℚ)
  | dataRegister (envelope : DataEnvelope) (now : ℚ)
  | dataDelete (envelope : DataEnvelope) (now : ℚ)
  | io (op : StreamOp) (ref : IORef) (now : ℚ)

namespace QuotaNode

open DataRegisterHandler (bucketName inBucket usedBytes quotaError Accepts)

variable (B : DataBackends) (ownRpcUri : String) (floatText : ℚ → String)

/-- `DATA_REGISTER` at the leader. -/
def handleRegister (s : QuotaNode) (envelope : DataEnvelope) (now : ℚ) : DataHandled :=
  DataRegisterHandler.handle B ownRpcUri (some s.buckets) s.store envelope now

/-- One step. -/
def step (s : QuotaNode) : QuotaAction → Option QuotaNode
  | .bucketRegister envelope now =>
    some { s with buckets := (BucketRegisterHandler.handle floatText s.buckets envelope now).1 }
  | .dataRegister envelope now =>
    some { s with store := (s.handleRegister B ownRpcUri envelope now).store }
  | .dataDelete envelope now =>
    some { s with store := (DataDeleteHandler.handle B s.store envelope now).store }
  | .io op ref now => some { s with store := (resolveIoRequest B s.store op ref now).store }

/-! ### The claim -/

/-- What a record counts in a bucket: its size, if that is positive. -/
def counted (bucket : String) (record : DataRecord) : ℤ :=
  if inBucket bucket record.name then max 0 record.totalSize else 0

/-- What the datasets of a bucket count. -/
def bucketBytes (catalog : DataCatalog) (bucket : String) : ℤ :=
  Dict.sumOver (counted bucket) catalog

/-- What the datasets of a bucket would count with a dataset of this size under the key. -/
def bytesWith (catalog : DataCatalog) (bucket : String) (key : RecordKey) (totalSize : ℤ) : ℤ :=
  (if inBucket bucket key.id then max 0 totalSize else 0) + bucketBytes (catalog.erase key) bucket

/-- Every bucket whose quota is not negative is within it. -/
def WithinQuota (s : QuotaNode) : Prop :=
  ∀ name bucket, s.buckets.lookup name = some bucket → 0 ≤ bucket.quotaBytes →
    bucketBytes s.store.catalog name ≤ bucket.quotaBytes

/-- A registration that would leave its bucket within the quota is not refused for quota. -/
def NotRefused (s : QuotaNode) (envelope : DataEnvelope) (now : ℚ) : Prop :=
  ∀ key totalSize bucket, envelope.key = some key → envelope.totalSize = some totalSize →
    s.buckets.lookup (bucketName key.id) = some bucket →
    bytesWith s.store.catalog (bucketName key.id) key totalSize ≤ bucket.quotaBytes →
    ∀ result ∈ (s.handleRegister B ownRpcUri envelope now).reply,
      result.errorName ≠ "QUOTA_EXCEEDED"

/-! ### The condition -/

/-- The dataset would leave every bucket that it lies in, and that `P` holds of, within its quota. -/
def Fits (s : QuotaNode) (key : RecordKey) (totalSize : ℤ) (P : String → Prop) : Prop :=
  ∀ e ∈ s.buckets.entries, 0 ≤ e.2.quotaBytes → inBucket e.1 key.id = true → P e.1 →
    bytesWith s.store.catalog e.1 key totalSize ≤ e.2.quotaBytes

/-- The check does not see what counts in this bucket: it looks at another bucket, or a size in it
is negative. -/
def Unseen (s : QuotaNode) (key : RecordKey) (totalSize : ℤ) (bucket : String) : Prop :=
  bucket ≠ bucketName key.id ∨ totalSize < 0 ∨
    ∃ record ∈ s.store.catalog.values, inBucket bucket record.name = true ∧ record.totalSize < 0

/-- An accepted registration fits where the check does not see what counts. -/
def AcceptGuard (s : QuotaNode) (envelope : DataEnvelope) : Prop :=
  ∀ key ∈ envelope.key, ∀ totalSize ∈ envelope.totalSize, ∀ chunkBytes ∈ envelope.chunkBytes,
    Accepts B (some s.buckets) s.store envelope key totalSize chunkBytes →
      s.Fits key totalSize (s.Unseen key totalSize)

/-- A registration that replaces a dataset of a positive size passes the check, which counts that
size, if it would leave its bucket within the quota. -/
def ReplaceGuard (s : QuotaNode) (envelope : DataEnvelope) : Prop :=
  ∀ key ∈ envelope.key, ∀ totalSize ∈ envelope.totalSize, ∀ chunkBytes ∈ envelope.chunkBytes,
    chunkBytes ≠ 0 → '/' ∈ key.id.toList →
    ∀ bucket ∈ s.buckets.lookup (bucketName key.id),
      ∀ record ∈ s.store.catalog.lookup key, 0 < record.totalSize →
        bytesWith s.store.catalog (bucketName key.id) key totalSize ≤ bucket.quotaBytes →
          usedBytes s.store.catalog (bucketName key.id) + totalSize ≤ bucket.quotaBytes

/-- What a step needs. -/
def QuotaGuard (s : QuotaNode) : QuotaAction → Prop
  | .bucketRegister envelope _ =>
    ∀ name ∈ envelope.requiredName, ∀ quotaBytes ∈ envelope.quotaBytes,
      name ∉ s.buckets → 0 ≤ quotaBytes → bucketBytes s.store.catalog name ≤ quotaBytes
  | .dataRegister envelope _ => s.AcceptGuard B envelope ∧ s.ReplaceGuard envelope
  | .dataDelete .. => True
  | .io .finalizeStream ref _ =>
    ∀ key ∈ parseRegisteredRef ref.location, ∀ stream ∈ s.store.openStreams.lookup key,
      s.Fits key stream.totalSize fun _ => True
  | .io .. => True

variable {B ownRpcUri floatText} {s t : QuotaNode} {envelope : DataEnvelope} {now : ℚ}
  {key : RecordKey} {totalSize : ℤ} {bucket : String}

instance (s : QuotaNode) (key : RecordKey) (totalSize : ℤ) :
    DecidablePred (s.Unseen key totalSize) := fun _ => by
  unfold Unseen
  infer_instance

instance (s : QuotaNode) (key : RecordKey) (totalSize : ℤ) (P : String → Prop) [DecidablePred P] :
    Decidable (s.Fits key totalSize P) := by
  unfold Fits
  infer_instance

instance (s : QuotaNode) (envelope : DataEnvelope) : Decidable (s.ReplaceGuard envelope) := by
  unfold ReplaceGuard
  infer_instance

instance (s : QuotaNode) (action : QuotaAction) : Decidable (s.QuotaGuard B action) := by
  rcases action with _ | _ | _ | ⟨_ | _ | _, _, _⟩ <;> unfold QuotaGuard <;>
    first
    | infer_instance
    | (unfold AcceptGuard; infer_instance)

/-! ### Sums -/

theorem counted_nonneg (bucket : String) (record : DataRecord) : 0 ≤ counted bucket record := by
  unfold counted
  split_ifs
  · exact le_max_left ..
  · exact le_rfl

theorem bucketBytes_erase_le (catalog : DataCatalog) (key : RecordKey) (bucket : String) :
    bucketBytes (catalog.erase key) bucket ≤ bucketBytes catalog bucket := by
  have hsum := Dict.sumOver_eq_add_erase (counted bucket) catalog key
  have hold : 0 ≤ (catalog.lookup key).elim 0 (counted bucket) := by
    rcases catalog.lookup key with _ | record
    · exact le_rfl
    · exact counted_nonneg bucket record
  unfold bucketBytes
  omega

/-- A record that is put counts in the place of the one that it replaces. -/
theorem bucketBytes_insert (catalog : DataCatalog) (bucket : String) {record : DataRecord}
    (hname : record.name = key.id) :
    bucketBytes (catalog.insert key record) bucket =
      bytesWith catalog bucket key record.totalSize := by
  unfold bucketBytes bytesWith
  rw [Dict.sumOver_insert, counted, hname]
  rfl

/-- What the check counts. -/
theorem usedBytes_eq (catalog : DataCatalog) (bucket : String) :
    usedBytes catalog bucket = Dict.sumOver (fun record =>
      if inBucket bucket record.name then record.totalSize else 0) catalog := by
  unfold usedBytes Dict.sumOver
  induction catalog.values with
  | nil => rfl
  | cons record records ih =>
    rw [List.filter_cons, List.map_cons, List.sum_cons]
    split_ifs
    · rw [List.map_cons, List.sum_cons, ih]
    · rw [ih, zero_add]

/-- A name with a slash lies in the bucket of its first part. -/
theorem inBucket_bucketName {name : String} (h : '/' ∈ name.toList) :
    inBucket (bucketName name) name = true := by
  unfold inBucket bucketName
  rw [String.toList_ofList, List.isPrefixOf_iff_prefix]
  exact Slices.takeWhile_append_prefix h

/-- A name in a bucket has a slash. -/
theorem slash_mem_of_inBucket {name : String} (h : inBucket bucket name = true) :
    '/' ∈ name.toList := by
  unfold inBucket at h
  obtain ⟨r, hr⟩ := List.isPrefixOf_iff_prefix.1 h
  rw [← hr]
  simp

/-- When no size in its bucket is negative, a registration that passes the check fits. -/
theorem bytesWith_le_of_seen (hseen : ¬ s.Unseen key totalSize bucket) :
    bytesWith s.store.catalog bucket key totalSize ≤
      usedBytes s.store.catalog bucket + totalSize := by
  unfold Unseen at hseen
  push Not at hseen
  obtain ⟨-, hsize, hsizes⟩ := hseen
  have hused : bucketBytes s.store.catalog bucket ≤ usedBytes s.store.catalog bucket := by
    rw [usedBytes_eq]
    refine Dict.sumOver_le_sumOver fun record hrecord => ?_
    unfold counted
    split_ifs with hin
    · exact max_le (hsizes record hrecord hin) le_rfl
    · exact le_rfl
  have hothers := bucketBytes_erase_le s.store.catalog key bucket
  unfold bytesWith
  split_ifs
  · rw [max_eq_right hsize]
    omega
  · omega

/-- The check counts at most what counts, and the record that is replaced. -/
theorem used_le_bytesWith (hin : inBucket bucket key.id = true)
    (hold : ∀ record, s.store.catalog.lookup key = some record → record.totalSize ≤ 0) :
    usedBytes s.store.catalog bucket + totalSize ≤ bytesWith s.store.catalog bucket key totalSize := by
  have hothers : Dict.sumOver (fun record =>
      if inBucket bucket record.name then record.totalSize else 0) (s.store.catalog.erase key) ≤
        bucketBytes (s.store.catalog.erase key) bucket := by
    refine Dict.sumOver_le_sumOver fun record _ => ?_
    unfold counted
    split_ifs
    · exact le_max_right ..
    · exact le_rfl
  have hreplaced : (s.store.catalog.lookup key).elim 0 (fun record =>
      if inBucket bucket record.name then record.totalSize else 0) ≤ 0 := by
    rcases hrecord : s.store.catalog.lookup key with _ | record
    · exact le_rfl
    · rw [Option.elim_some]
      split_ifs
      · exact hold record hrecord
      · exact le_rfl
  have hmax := le_max_right 0 totalSize
  rw [usedBytes_eq, Dict.sumOver_eq_add_erase _ _ key, bytesWith, if_pos hin]
  omega

/-! ### The steps -/

/-- A record that is put under the key keeps every bucket within its quota just when it fits. -/
theorem withinQuota_insert_iff (h : s.WithinQuota) {record : DataRecord}
    (hname : record.name = key.id) (hcatalog : t.store.catalog = s.store.catalog.insert key record)
    (hbuckets : t.buckets = s.buckets) :
    t.WithinQuota ↔ s.Fits key record.totalSize fun _ => True := by
  unfold WithinQuota Fits
  rw [hcatalog, hbuckets]
  constructor
  · intro hwithin e he hquota _ _
    rw [← bucketBytes_insert s.store.catalog e.1 hname]
    exact hwithin e.1 e.2 (AList.mem_lookup_iff.2 he) hquota
  · intro hfits name bucket hbucket hquota
    rw [bucketBytes_insert s.store.catalog name hname]
    by_cases hin : inBucket name key.id = true
    · exact hfits ⟨name, bucket⟩ (AList.mem_lookup_iff.1 hbucket) hquota hin trivial
    · rw [bytesWith, if_neg hin, zero_add]
      exact (bucketBytes_erase_le ..).trans (h name bucket hbucket hquota)

/-- The check of an accepted request. -/
theorem used_le_of_accepts {chunkBytes : ℤ} {found : DataBucket}
    (h : Accepts B (some s.buckets) s.store envelope key totalSize chunkBytes)
    (hslash : '/' ∈ key.id.toList) (hfound : s.buckets.lookup (bucketName key.id) = some found) :
    usedBytes s.store.catalog (bucketName key.id) + totalSize ≤ found.quotaBytes := by
  obtain ⟨-, -, -, -, hquota, -⟩ := h
  unfold quotaError DataRegisterHandler.checkBucketQuota at hquota
  dsimp only at hquota
  rw [if_pos hslash, hfound] at hquota
  dsimp only at hquota
  split_ifs at hquota with hexceeded
  exact not_lt.1 hexceeded

/-- An accepted registration fits if it fits where the check does not see what counts. -/
theorem fits_iff_of_accepts {chunkBytes : ℤ}
    (h : Accepts B (some s.buckets) s.store envelope key totalSize chunkBytes) :
    (s.Fits key totalSize fun _ => True) ↔ s.Fits key totalSize (s.Unseen key totalSize) := by
  constructor
  · intro hfits e he hquota hin _
    exact hfits e he hquota hin trivial
  · rintro hfits ⟨name, bucket⟩ he hquota hin -
    by_cases hunseen : s.Unseen key totalSize name
    · exact hfits _ he hquota hin hunseen
    · -- the check looks at this very bucket
      obtain rfl : name = bucketName key.id := by
        by_contra hne
        exact hunseen (.inl hne)
      exact (bytesWith_le_of_seen hunseen).trans
        (used_le_of_accepts h (slash_mem_of_inBucket hin) (AList.mem_lookup_iff.2 he))

theorem acceptGuard_iff {chunkBytes : ℤ}
    (h : Accepts B (some s.buckets) s.store envelope key totalSize chunkBytes) :
    s.AcceptGuard B envelope ↔ s.Fits key totalSize (s.Unseen key totalSize) := by
  have haccepts := h
  obtain ⟨hkey, hsize, hbytes, -⟩ := haccepts
  constructor
  · intro hguard
    exact hguard key hkey totalSize hsize chunkBytes hbytes h
  · intro hfits key' hkey' totalSize' hsize' _ _ _
    obtain rfl := Option.some.inj (hkey.symm.trans hkey')
    obtain rfl := Option.some.inj (hsize.symm.trans hsize')
    exact hfits

/-- After `DATA_REGISTER` the buckets are within their quotas just when its guard is met. -/
theorem withinQuota_dataRegister_iff (h : s.WithinQuota)
    (hstep : step B ownRpcUri floatText s (.dataRegister envelope now) = some t) :
    t.WithinQuota ↔ s.AcceptGuard B envelope := by
  obtain rfl := Option.some.inj hstep
  by_cases hall : ∀ key totalSize chunkBytes,
      ¬ Accepts B (some s.buckets) s.store envelope key totalSize chunkBytes
  · have hstore : (s.handleRegister B ownRpcUri envelope now).store = s.store :=
      (DataRegisterHandler.handle_refused hall).1
    rw [hstore]
    exact iff_of_true h fun key _ totalSize _ chunkBytes _ haccepts =>
      absurd haccepts (hall key totalSize chunkBytes)
  · push Not at hall
    obtain ⟨key, totalSize, chunkBytes, haccepts⟩ := hall
    rw [acceptGuard_iff haccepts, ← fits_iff_of_accepts haccepts]
    have hname :
        (DataRegisterHandler.recordOf envelope key totalSize chunkBytes now).name = key.id := rfl
    refine withinQuota_insert_iff h hname ?_ rfl
    unfold handleRegister
    rw [DataRegisterHandler.handle_of_accepts haccepts]
    simp [DataStore.putRecord]

/-- After `BUCKET_REGISTER` too. -/
theorem withinQuota_bucketRegister_iff (h : s.WithinQuota)
    (hstep : step B ownRpcUri floatText s (.bucketRegister envelope now) = some t) :
    t.WithinQuota ↔ s.QuotaGuard B (.bucketRegister envelope now) := by
  obtain rfl := Option.some.inj hstep
  unfold QuotaGuard
  rcases hname : envelope.requiredName with _ | name
  · simp only [BucketRegisterHandler.handle, hname]
    exact iff_of_true h fun _ hnone => nomatch hnone
  rcases hquota : envelope.quotaBytes with _ | quotaBytes
  · simp only [BucketRegisterHandler.handle, hname, hquota]
    exact iff_of_true h fun _ _ _ hnone => nomatch hnone
  rcases hold : s.buckets.lookup name with _ | bucket
  swap
  · simp only [BucketRegisterHandler.handle, hname, hquota, BucketRegistry.register, hold]
    refine iff_of_true h fun _ hmem _ _ hnew => ?_
    cases hmem
    exact absurd (Dict.mem_of_lookup hold) hnew
  simp only [BucketRegisterHandler.handle, hname, hquota, BucketRegistry.register, hold]
  unfold WithinQuota
  constructor
  · intro hwithin _ hmem _ hmem' _ hnonneg
    cases hmem
    cases hmem'
    exact hwithin name _ (AList.lookup_insert _) hnonneg
  · intro hguard name' bucket hbucket hnonneg
    by_cases hne : name' = name
    · subst hne
      rw [AList.lookup_insert] at hbucket
      cases hbucket
      exact hguard name' rfl quotaBytes rfl (AList.lookup_eq_none.1 hold) hnonneg
    · rw [AList.lookup_insert_ne hne] at hbucket
      exact h name' bucket hbucket hnonneg

/-- After `DATA_DELETE` the buckets are within their quotas. -/
theorem withinQuota_dataDelete (h : s.WithinQuota)
    (hstep : step B ownRpcUri floatText s (.dataDelete envelope now) = some t) :
    t.WithinQuota := by
  obtain rfl := Option.some.inj hstep
  have hcatalog : (DataDeleteHandler.handle B s.store envelope now).store.catalog =
        s.store.catalog ∨
      ∃ key, (DataDeleteHandler.handle B s.store envelope now).store.catalog =
        s.store.catalog.erase key := by
    unfold DataDeleteHandler.handle
    rcases envelope.key with _ | key
    · exact .inl rfl
    · rcases hrecord : s.store.catalog.lookup key with _ | record <;>
        simp only [DataStore.delete, hrecord]
      · exact .inl trivial
      · exact .inr ⟨key, rfl⟩
  intro name bucket hbucket hnonneg
  rcases hcatalog with hsame | ⟨key, herase⟩
  · dsimp only
    rw [hsame]
    exact h name bucket hbucket hnonneg
  · dsimp only
    rw [herase]
    exact (bucketBytes_erase_le ..).trans (h name bucket hbucket hnonneg)

/-- After a request of a stream they are just when its guard is met. -/
theorem withinQuota_io_iff (h : s.WithinQuota) {op : StreamOp} {ref : IORef}
    (hstep : step B ownRpcUri floatText s (.io op ref now) = some t) :
    t.WithinQuota ↔ s.QuotaGuard B (.io op ref now) := by
  obtain rfl := Option.some.inj hstep
  by_cases hfinal : op = .finalizeStream ∧ ∃ key stream,
      parseRegisteredRef ref.location = some key ∧ s.store.openStreams.lookup key = some stream
  · obtain ⟨rfl, key, stream, hkey, hstream⟩ := hfinal
    have hfits : s.QuotaGuard B (.io .finalizeStream ref now) ↔
        s.Fits key stream.totalSize fun _ => True := by
      constructor
      · intro hguard
        exact hguard key hkey stream hstream
      · intro hfits key' hkey' stream' hstream'
        obtain rfl := Option.some.inj (hkey.symm.trans hkey')
        obtain rfl := Option.some.inj (hstream.symm.trans hstream')
        exact hfits
    rw [hfits]
    exact withinQuota_insert_iff (t := _) h (rfl : (DataStore.streamRecord B key stream now).name = key.id)
      (catalog_finalizeStream hkey hstream) rfl
  · have hnone : op = .finalizeStream → ∀ key ∈ parseRegisteredRef ref.location,
        s.store.openStreams.lookup key = none := by
      intro hop key hkey
      by_contra hsome
      obtain ⟨stream, hstream⟩ := Option.ne_none_iff_exists'.1 hsome
      exact hfinal ⟨hop, key, stream, hkey, hstream⟩
    have hcatalog : (resolveIoRequest B s.store op ref now).store.catalog = s.store.catalog :=
      catalog_resolveIoRequest hnone
    refine iff_of_true ?_ ?_
    · intro name bucket hbucket hnonneg
      dsimp only
      rw [hcatalog]
      exact h name bucket hbucket hnonneg
    · cases op with
      | openStream => trivial
      | appendChunk => trivial
      | finalizeStream =>
        intro key hkey stream hstream
        rw [hnone rfl key hkey] at hstream
        cases hstream

/-- The guard without the part about refusals. -/
def KeepGuard (B : DataBackends) (s : QuotaNode) : QuotaAction → Prop
  | .dataRegister envelope _ => s.AcceptGuard B envelope
  | action => s.QuotaGuard B action

/-- A step keeps the buckets within their quotas just when its guard is met. -/
theorem withinQuota_step_iff (h : s.WithinQuota) {action : QuotaAction}
    (hstep : step B ownRpcUri floatText s action = some t) :
    t.WithinQuota ↔ s.KeepGuard B action := by
  cases action with
  | bucketRegister => exact withinQuota_bucketRegister_iff h hstep
  | dataRegister => exact withinQuota_dataRegister_iff h hstep
  | dataDelete => exact iff_of_true (withinQuota_dataDelete h hstep) trivial
  | io => exact withinQuota_io_iff h hstep

/-! ### Refusals -/

/-- The error of the quota. -/
theorem quotaError_name {buckets : BucketCatalog} {catalog : DataCatalog} {name : String}
    {err : AxoError} (h : quotaError (some buckets) catalog name totalSize = some err)
    (hname : err.name = "QUOTA_EXCEEDED") :
    '/' ∈ name.toList ∧ ∃ bucket, buckets.lookup (bucketName name) = some bucket ∧
      bucket.quotaBytes < usedBytes catalog (bucketName name) + totalSize := by
  unfold quotaError DataRegisterHandler.checkBucketQuota at h
  dsimp only at h
  split_ifs at h with hslash
  refine ⟨hslash, ?_⟩
  rcases hbucket : buckets.lookup (bucketName name) with _ | bucket <;> rw [hbucket] at h
  · cases h
    simp [bucketNotFoundError] at hname
  · dsimp only at h
    split_ifs at h with hexceeded
    exact ⟨bucket, rfl, hexceeded⟩

/-- A request is refused for quota when it has all fields, and its bucket has less room than the
check asks for. -/
theorem refused_iff :
    (∃ result ∈ (s.handleRegister B ownRpcUri envelope now).reply,
      result.errorName = "QUOTA_EXCEEDED") ↔
    ∃ key totalSize chunkBytes bucket, envelope.key = some key ∧
      envelope.totalSize = some totalSize ∧ envelope.chunkBytes = some chunkBytes ∧
      chunkBytes ≠ 0 ∧ '/' ∈ key.id.toList ∧ s.buckets.lookup (bucketName key.id) = some bucket ∧
      bucket.quotaBytes < usedBytes s.store.catalog (bucketName key.id) + totalSize := by
  constructor
  · rintro ⟨result, hreply, hname⟩
    unfold handleRegister DataRegisterHandler.handle at hreply
    split at hreply
    case h_2 =>
      cases hreply
      exact absurd hname (by decide)
    case h_1 key totalSize chunkBytes hkey hsize hbytes =>
      obtain ⟨hbytes, hzero⟩ := Option.filter_eq_some_iff.1 hbytes
      rcases hquota : quotaError (some s.buckets) s.store.catalog key.id totalSize with _ | err <;>
        simp only [hquota] at hreply
      · -- the other replies have other names
        rcases hregister : s.store.register B key envelope.format envelope.kind totalSize
            chunkBytes now envelope.contentHash envelope.contentHashAlgo with (raw | raised) | _ <;>
          simp only [hregister] at hreply <;> cases hreply
        · simp [CommandResult.fromError, storageFailureError] at hname
        · simp at hname
      · cases hreply
        obtain ⟨hslash, bucket, hbucket, hexceeded⟩ := quotaError_name hquota hname
        exact ⟨key, totalSize, chunkBytes, bucket, hkey, hsize, hbytes, of_decide_eq_true hzero,
          hslash, hbucket, hexceeded⟩
  · rintro ⟨key, totalSize, chunkBytes, bucket, hkey, hsize, hbytes, hzero, hslash, hbucket,
      hexceeded⟩
    have hfilter : envelope.chunkBytes.filter (· ≠ 0) = some chunkBytes :=
      Option.filter_eq_some_iff.2 ⟨hbytes, decide_eq_true hzero⟩
    have hquota : quotaError (some s.buckets) s.store.catalog key.id totalSize =
        some (quotaExceededError (bucketName key.id)
          (usedBytes s.store.catalog (bucketName key.id)) totalSize bucket.quotaBytes) := by
      unfold quotaError DataRegisterHandler.checkBucketQuota
      dsimp only
      rw [if_pos hslash, hbucket]
      dsimp only
      rw [if_pos hexceeded]
    refine ⟨.fromError (quotaExceededError (bucketName key.id)
      (usedBytes s.store.catalog (bucketName key.id)) totalSize bucket.quotaBytes), ?_, rfl⟩
    unfold handleRegister DataRegisterHandler.handle
    simp only [hkey, hsize, hfilter, hquota]
    rfl

/-- A registration that fits is let through just when its guard is met. -/
theorem notRefused_iff : s.NotRefused B ownRpcUri envelope now ↔ s.ReplaceGuard envelope := by
  constructor
  · intro hlet key hkey totalSize hsize chunkBytes hbytes hzero hslash bucket hbucket _ _ _ hfits
    by_contra hexceeded
    have hrefused : ∃ result ∈ (s.handleRegister B ownRpcUri envelope now).reply,
        result.errorName = "QUOTA_EXCEEDED" :=
      refused_iff.2 ⟨key, totalSize, chunkBytes, bucket, hkey, hsize, hbytes, hzero, hslash, hbucket,
        not_le.1 hexceeded⟩
    obtain ⟨result, hresult, hname⟩ := hrefused
    exact hlet key totalSize bucket hkey hsize hbucket hfits result hresult hname
  · intro hguard key totalSize bucket hkey hsize hbucket hfits result hresult hname
    obtain ⟨key', totalSize', chunkBytes, bucket', hkey', hsize', hbytes, hzero, hslash, hbucket',
      hexceeded⟩ := refused_iff.1 ⟨result, hresult, hname⟩
    obtain rfl := Option.some.inj (hkey.symm.trans hkey')
    obtain rfl := Option.some.inj (hsize.symm.trans hsize')
    obtain rfl := Option.some.inj (hbucket.symm.trans hbucket')
    by_cases hpositive : ∃ record, s.store.catalog.lookup key = some record ∧ 0 < record.totalSize
    · obtain ⟨record, hrecord, hpos⟩ := hpositive
      exact absurd (hguard key hkey totalSize hsize chunkBytes hbytes hzero hslash bucket hbucket
        record hrecord hpos hfits) (not_le.2 hexceeded)
    · push Not at hpositive
      have hused : usedBytes s.store.catalog (bucketName key.id) + totalSize ≤
          bytesWith s.store.catalog (bucketName key.id) key totalSize :=
        used_le_bytesWith (inBucket_bucketName hslash) hpositive
      exact absurd (hused.trans hfits) (not_le.2 hexceeded)

/-- In a run whose steps meet the guard, in every state reached, every bucket is within its quota,
and a registration that meets the guard and would leave its bucket within the quota is not refused
for quota. -/
theorem quota_of_reach
    (hreach : Reach (step B ownRpcUri floatText) (QuotaGuard B) {} s) :
    s.WithinQuota ∧ ∀ envelope now, s.QuotaGuard B (.dataRegister envelope now) →
      s.NotRefused B ownRpcUri envelope now := by
  constructor
  · refine Reach.invariant (I := WithinQuota) ?_ (fun s action t h hguard hstep => ?_) hreach
    · intro name bucket hbucket
      cases hbucket
    · refine (withinQuota_step_iff h hstep).2 ?_
      cases action with
      | dataRegister => exact hguard.1
      | bucketRegister => exact hguard
      | dataDelete => exact hguard
      | io => exact hguard
  · intro envelope now hguard
    exact notRefused_iff.2 hguard.2

open DataHistory (plainBackends)

/-- The steps at a leader with a file system. -/
def plainStep : QuotaNode → QuotaAction → Option QuotaNode :=
  step plainBackends "tcp://leader:5555" fun _ => "0.0"

/-- A bucket is registered. -/
def plainBucket (name : String) (quotaBytes : ℤ) : QuotaAction :=
  .bucketRegister { name := some name, quotaBytes := some quotaBytes } 0

/-- The registration of the first version of a dataset. -/
def plainEnvelope (name : String) (totalSize : ℤ) : DataEnvelope :=
  { name := some name, version := some 1, totalSize := some totalSize, chunkBytes := some 2 }

/-- Registrations and a stream that fill a bucket. -/
theorem quota_filledBucket : ∃ s, Reach plainStep (QuotaGuard plainBackends) {} s ∧
    s.WithinQuota ∧ bucketBytes s.store.catalog "b" = 3 := by
  obtain ⟨s, hreach, htest⟩ := exists_reach_of_guarded_run plainStep (QuotaGuard plainBackends) {}
    (fun s => decide (bucketBytes s.store.catalog "b" = 3))
    [plainBucket "b" 3, .dataRegister (plainEnvelope "b/x" 3) 0,
      .dataRegister (plainEnvelope "b/y" 2) 0,
      .dataDelete { name := some "b/x", version := some 1 } 0,
      .dataRegister (plainEnvelope "b/y" 1) 0,
      .io (.openStream none) { kind := "fs", location := "b/x/1" } 0,
      .io (.appendChunk [7, 8]) { kind := "fs", location := "b/x/1" } 0,
      .io .finalizeStream { kind := "fs", location := "b/x/1" } 0]
    (by decide +kernel)
  exact ⟨s, hreach, (quota_of_reach hreach).1, of_decide_eq_true htest⟩

/-- A stream exceeds the quota of its bucket, and a dataset that fills its bucket cannot be
registered again. -/
theorem exceeded_stream_refused_replaced : ∃ s, Reach plainStep Always {} s ∧ ¬ s.WithinQuota ∧
    ∃ envelope, ¬ s.NotRefused plainBackends "tcp://leader:5555" envelope 0 := by
  obtain ⟨s, hreach, htest⟩ := exists_reach_of_run plainStep {}
    (fun s => (s.buckets.lookup "c").any (fun bucket : DataBucket => decide (0 ≤ bucket.quotaBytes) &&
        decide (bucket.quotaBytes < bucketBytes s.store.catalog "c")) &&
      !decide (s.ReplaceGuard (plainEnvelope "b/y" 2)))
    [plainBucket "b" 2, .dataRegister (plainEnvelope "b/y" 2) 0, plainBucket "c" 0,
      .io (.openStream none) { kind := "fs", location := "c/x/1" } 0,
      .io (.appendChunk [7]) { kind := "fs", location := "c/x/1" } 0,
      .io .finalizeStream { kind := "fs", location := "c/x/1" } 0]
    (by decide +kernel)
  simp only [Bool.and_eq_true, Option.any_eq_true, decide_eq_true_eq, Bool.not_eq_true',
    decide_eq_false_iff_not] at htest
  obtain ⟨⟨bucket, hbucket, hnonneg, hexceeded⟩, hreplace⟩ := htest
  refine ⟨s, hreach, fun hwithin => ?_, plainEnvelope "b/y" 2, fun hlet => ?_⟩
  · exact absurd (hwithin "c" bucket hbucket hnonneg) (not_le.2 hexceeded)
  · exact hreplace (notRefused_iff.1 hlet)

end QuotaNode

end Axo
