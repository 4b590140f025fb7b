import GamePath.Relay.ClientRegistry

/-!
# Reloading enrolments

A directory loads a list of records exactly when every file of it can be read (`Readable`) and the
records fit together (`Fit`). After a reload the registry holds exactly the loaded records, and the
sessions of a client are taken over exactly where its key and address stand (`Reloaded`); a reload
that fails leaves everything. No packet turn touches a record, so addresses stay apart over a run.
-/

namespace GamePath.Relay.ClientRegistry

open Lib KeyedMap Option Engine Engine.Protocol

variable {codec : Codec} {crypto : SessionCrypto}

/-! ## Reading the directory -/

/-- The record files of a listing, in its order. -/
def recordFiles (entries : List (Except IoError DirEntry)) : List DirEntry :=
  (entries.filterMap Except.toOption).filter DirEntry.isRecord

/-- A file holds a record: it can be read, is not too large, and parses. -/
def Holds (codec : Codec) (entry : DirEntry) (record : ClientRecord) : Prop :=
  ∃ bytes, entry.contents = .ok bytes ∧ bytes.length ≤ maxRecordBytes ∧
    codec.fromSlice bytes = some record

/-- A directory can be read, and its record files hold the given records. -/
def Readable (codec : Codec) (directory : Directory) (records : List ClientRecord) : Prop :=
  ∃ entries, directory = .ok entries ∧ (∀ e ∈ entries, ∃ entry, e = .ok entry) ∧
    (recordFiles entries).length ≤ maxClients ∧
    List.Forall₂ (Holds codec) (recordFiles entries) records

theorem readRecord_ok_iff (entry : DirEntry) (record : ClientRecord) :
    readRecord codec entry = .ok record ↔ Holds codec entry record := by
  rw [readRecord, Holds]
  cases entry.contents with
  | error error => simp
  | ok bytes =>
    simp only [List.length_take, Except.ok.injEq, exists_eq_left']
    by_cases hlen : bytes.length ≤ maxRecordBytes
    · have htake : bytes.take (maxRecordBytes + 1) = bytes :=
        List.take_of_length_le (Nat.le_succ_of_le hlen)
      rw [if_neg (by omega), htake]
      cases codec.fromSlice bytes with
      | none => simp
      | some found => simp [hlen]
    · rw [if_pos (by omega)]
      simp [hlen]

/-- What the loop has read when it ends: one record for each file, on top of what it had. -/
theorem readEntries_ok_iff (entries : List (Except IoError DirEntry)) :
    ∀ (before : List (Bytes × ClientRecord)) (files : List (Bytes × ClientRecord)),
      before.length ≤ maxClients →
      (readEntries codec before entries = .ok files ↔
        (∀ e ∈ entries, ∃ entry, e = .ok entry) ∧
        before.length + (recordFiles entries).length ≤ maxClients ∧
        ∃ read, files = before ++ read ∧
          List.Forall₂ (fun entry file => file.1 = entry.name ∧ Holds codec entry file.2)
            (recordFiles entries) read) := by
  induction entries with
  | nil =>
    intro before files hroom
    simp [readEntries, recordFiles, hroom, eq_comm]
  | cons e rest ih =>
    intro before files hroom
    cases e with
    | error error => simp [readEntries]
    | ok entry =>
      have hlisted : (∀ e ∈ Except.ok entry :: rest, ∃ entry : DirEntry, e = .ok entry) ↔
          ∀ e ∈ rest, ∃ entry, e = .ok entry := by simp
      rw [readEntries, hlisted]
      by_cases hjson : entry.isRecord = true
      · have hfiles : recordFiles (.ok entry :: rest) = entry :: recordFiles rest := by
          simp [recordFiles, Except.toOption, hjson]
        rw [if_pos hjson, hfiles, List.length_cons]
        by_cases hfull : maxClients ≤ before.length
        · rw [if_pos hfull]
          simp only [reduceCtorEq, false_iff, not_and]
          intro _ hle
          omega
        rw [if_neg hfull]
        cases hread : readRecord codec entry with
        | error error =>
          simp only [reduceCtorEq, false_iff, not_and, not_exists]
          rintro - - read - hread'
          cases hread' with
          | cons hfirst _ =>
            rw [(readRecord_ok_iff _ _).2 hfirst.2] at hread
            cases hread
        | ok record =>
          have hholds := (readRecord_ok_iff _ _).1 hread
          rw [ih _ _ (by simp; omega), List.length_append, List.length_singleton]
          refine and_congr_right fun _ => and_congr (by omega) ?_
          constructor
          · rintro ⟨read, rfl, hall⟩
            exact ⟨(entry.name, record) :: read, by simp, .cons ⟨rfl, hholds⟩ hall⟩
          rintro ⟨read, rfl, hall⟩
          cases hall with
          | @cons _ file _ read hfirst hall =>
            obtain ⟨name, found⟩ := file
            -- The file holds one record only: what was read is what the rule says.
            have hsame : found = record := by
              have hfound := (readRecord_ok_iff _ _).2 hfirst.2
              rw [hread] at hfound
              exact (Except.ok.inj hfound).symm
            obtain rfl : name = entry.name := hfirst.1
            exact ⟨read, by simp [hsame], hall⟩
      · have hfiles : recordFiles (.ok entry :: rest) = recordFiles rest := by
          simp [recordFiles, Except.toOption, hjson]
        rw [if_neg hjson, hfiles]
        exact ih before files hroom

theorem readRecords_ok_iff (directory : Directory) (records : List ClientRecord) :
    readRecords codec directory = .ok records ↔ Readable codec directory records := by
  rw [readRecords, readRecordFiles, Readable]
  cases directory with
  | error error => simp [Except.bind, Except.map]
  | ok entries =>
    have hiff := fun files =>
      @readEntries_ok_iff codec entries [] files (Nat.zero_le _)
    simp only [Except.bind, Except.ok.injEq, exists_eq_left']
    constructor
    · intro h
      cases hread : readEntries codec [] entries with
      | error error => rw [hread] at h; cases h
      | ok files =>
        obtain ⟨hlisted, hcount, found, hfound, hall⟩ := (hiff files).1 hread
        subst hfound
        rw [hread] at h
        obtain rfl : files.map Prod.snd = records := by simpa [Except.map] using h
        refine ⟨hlisted, by simpa using hcount, ?_⟩
        rw [List.forall₂_map_right_iff]
        exact hall.imp fun _ _ h => h.2
    · rintro ⟨hlisted, hcount, hall⟩
      -- The names are put back beside the records.
      have hzip : List.Forall₂ (fun entry file => file.1 = entry.name ∧ Holds codec entry file.2)
          (recordFiles entries) ((recordFiles entries).map DirEntry.name |>.zip records) := by
        generalize recordFiles entries = files at hall
        induction hall with
        | nil => exact .nil
        | cons hfirst _ ih => exact .cons ⟨rfl, hfirst⟩ ih
      have hread := (hiff _).2 ⟨hlisted, by simpa using hcount, _, rfl, hzip⟩
      rw [hread]
      simp only [Except.map, List.nil_append, Except.ok.injEq]
      exact List.map_snd_zip (by rw [List.length_map, hall.length_eq])

/-! ## Checking the records -/

/-- Records that make a registry: each has an id, a key and an address of the pool, and no two share
an id or an address. -/
structure Fit (codec : Codec) (records : List ClientRecord) : Prop where
  keyed : ∀ r ∈ records, ∃ material, r.token.material codec = .ok material
  pooled : ∀ r ∈ records, inPool r.virtualIpv4 = true
  idsDistinct : records.Pairwise fun r r' => ∀ m m', r.token.material codec = .ok m →
    r'.token.material codec = .ok m' → m.1 ≠ m'.1
  addressesDistinct : (records.map ClientRecord.virtualIpv4).Nodup

/-- The clients of the loop stand for the records it has taken, and so do the addresses. -/
structure Taken (codec : Codec) (records : List ClientRecord) (clients : Registry)
    (addresses : List Octets) : Prop where
  clients : ∀ id client, clients.get? id = some client ↔ ∃ r ∈ records, ∃ key,
    r.token.material codec = .ok (id, key) ∧ client = ⟨r, id, key, KeyedMap.empty⟩
  addresses : ∀ address, address ∈ addresses ↔ ∃ r ∈ records, r.virtualIpv4 = address

variable {records : List ClientRecord}

theorem fit_append_singleton {record : ClientRecord} :
    Fit codec (records ++ [record]) ↔
      Fit codec records ∧ (∃ material, record.token.material codec = .ok material) ∧
      inPool record.virtualIpv4 = true ∧
      (∀ r ∈ records, ∀ m m', r.token.material codec = .ok m →
        record.token.material codec = .ok m' → m.1 ≠ m'.1) ∧
      ∀ r ∈ records, r.virtualIpv4 ≠ record.virtualIpv4 := by
  constructor
  · rintro ⟨hkeyed, hpooled, hids, haddresses⟩
    rw [List.pairwise_append] at hids
    rw [List.map_append, List.nodup_append] at haddresses
    refine ⟨⟨fun r hr => hkeyed r (by simp [hr]), fun r hr => hpooled r (by simp [hr]), hids.1,
      haddresses.1⟩, hkeyed record (by simp), hpooled record (by simp), ?_, ?_⟩
    · intro r hr
      exact hids.2.2 r hr record (by simp)
    · intro r hr
      exact haddresses.2.2 _ (List.mem_map_of_mem hr) _ (by simp)
  rintro ⟨⟨hkeyed, hpooled, hids, haddresses⟩, hkey, hpool, hid, haddress⟩
  refine ⟨?_, ?_, ?_, ?_⟩
  · intro r hr
    rcases List.mem_snoc.1 hr with hr | rfl
    · exact hkeyed r hr
    · exact hkey
  · intro r hr
    rcases List.mem_snoc.1 hr with hr | rfl
    · exact hpooled r hr
    · exact hpool
  · rw [List.pairwise_append]
    refine ⟨hids, List.pairwise_singleton _ _, ?_⟩
    intro r hr r' hr'
    rw [List.mem_singleton.1 hr']
    exact hid r hr
  · rw [List.map_append, List.nodup_append]
    refine ⟨haddresses, List.nodup_singleton _, ?_⟩
    intro address hmem other hother
    obtain ⟨r, hr, rfl⟩ := List.mem_map.1 hmem
    rw [List.mem_singleton.1 hother]
    exact haddress r hr

variable {addresses : List Octets}

theorem Taken.insert {clients : Registry} (h : Taken codec records clients addresses)
    {record : ClientRecord} {id : ClientId} {key : Vector UInt8 32}
    (hmaterial : record.token.material codec = .ok (id, key)) (hfree : clients.get? id = none) :
    Taken codec (records ++ [record]) (clients.insert id ⟨record, id, key, KeyedMap.empty⟩)
      (record.virtualIpv4 :: addresses) where
  clients := by
    intro other client
    rw [get?_insert]
    by_cases hother : other = id
    · subst hother
      rw [if_pos rfl]
      constructor
      · intro heq
        exact ⟨record, by simp, key, hmaterial, (some.inj heq).symm⟩
      rintro ⟨r, hr, key', hr', rfl⟩
      rcases List.mem_snoc.1 hr with hr | rfl
      · -- An earlier record of this id would be in the map.
        rw [(h.clients other ⟨r, other, key', KeyedMap.empty⟩).2 ⟨r, hr, key', hr', rfl⟩] at hfree
        cases hfree
      · rw [hmaterial] at hr'
        cases hr'
        rfl
    · rw [if_neg hother, h.clients]
      constructor
      · rintro ⟨r, hr, found⟩
        exact ⟨r, by simp [hr], found⟩
      · rintro ⟨r, hr, key', hr', rfl⟩
        rcases List.mem_snoc.1 hr with hr | rfl
        · exact ⟨r, hr, key', hr', rfl⟩
        · rw [hmaterial] at hr'
          exact absurd (Prod.mk.inj (Except.ok.inj hr')).1.symm hother
  addresses := by
    intro address
    rw [List.mem_cons, h.addresses]
    constructor
    · rintro (rfl | ⟨r, hr, rfl⟩)
      · exact ⟨record, by simp, rfl⟩
      · exact ⟨r, by simp [hr], rfl⟩
    · rintro ⟨r, hr, rfl⟩
      rcases List.mem_snoc.1 hr with hr | hr
      · exact .inr ⟨r, hr, rfl⟩
      · exact .inl (congrArg ClientRecord.virtualIpv4 hr)

/-- The loop of `validate_records` ends well exactly when all records fit, and then it has taken
them all. -/
theorem validateFrom_spec (rest : List ClientRecord) :
    ∀ (records : List ClientRecord) (clients : Registry) (addresses : List Octets),
      Fit codec records → Taken codec records clients addresses →
      (Fit codec (records ++ rest) ↔ ∃ next, validateFrom codec clients addresses rest = .ok next) ∧
      ∀ next, validateFrom codec clients addresses rest = .ok next →
        ∃ addresses', Taken codec (records ++ rest) next addresses' := by
  induction rest with
  | nil =>
    intro records clients addresses hfit htaken
    rw [List.append_nil]
    refine ⟨iff_of_true hfit ⟨clients, rfl⟩, ?_⟩
    intro next heq
    cases heq
    exact ⟨addresses, htaken⟩
  | cons record rest ih =>
    intro records clients addresses hfit htaken
    rw [List.append_cons]
    -- Without a part of the condition on this record the whole list does not fit.
    have hfront : Fit codec (records ++ [record] ++ rest) → Fit codec (records ++ [record]) := by
      intro h
      refine ⟨fun r hr => h.keyed r (List.mem_append_left _ hr),
        fun r hr => h.pooled r (List.mem_append_left _ hr),
        (List.pairwise_append.1 h.idsDistinct).1, ?_⟩
      have hnodup := h.addressesDistinct
      rw [List.map_append, List.nodup_append] at hnodup
      exact hnodup.1
    rw [validateFrom]
    cases hmaterial : record.token.material codec with
    | error message =>
      refine ⟨iff_of_false ?_ (by simp), by simp⟩
      intro h
      obtain ⟨material, hsome⟩ := (fit_append_singleton.1 (hfront h)).2.1
      rw [hmaterial] at hsome
      cases hsome
    | ok material =>
      obtain ⟨id, key⟩ := material
      dsimp only
      by_cases hpool : inPool record.virtualIpv4 = true
      · rw [if_neg (not_not_intro hpool)]
        by_cases hduplicate : (clients.get? id).isSome ∨ record.virtualIpv4 ∈ addresses
        · rw [if_pos hduplicate]
          refine ⟨iff_of_false ?_ (by simp), by simp⟩
          intro h
          obtain ⟨-, -, -, hids, haddresses⟩ := fit_append_singleton.1 (hfront h)
          rcases hduplicate with hid | haddress
          · obtain ⟨client, hclient⟩ := isSome_iff_exists.1 hid
            obtain ⟨r, hr, key', hr', -⟩ := (htaken.clients id client).1 hclient
            exact hids r hr (id, key') (id, key) hr' hmaterial rfl
          · obtain ⟨r, hr, heq⟩ := (htaken.addresses _).1 haddress
            exact haddresses r hr heq
        rw [if_neg hduplicate]
        obtain ⟨hid, haddress⟩ := not_or.1 hduplicate
        have hfree : clients.get? id = none := by simpa using hid
        have hfits : Fit codec (records ++ [record]) := by
          refine fit_append_singleton.2 ⟨hfit, ⟨_, hmaterial⟩, hpool, ?_, ?_⟩
          · rintro r hr ⟨id', key'⟩ m' hr' hm' heq
            rw [hmaterial] at hm'
            cases hm'
            obtain rfl : id' = id := heq
            rw [(htaken.clients id' _).2 ⟨r, hr, key', hr', rfl⟩] at hfree
            cases hfree
          · intro r hr heq
            exact haddress ((htaken.addresses _).2 ⟨r, hr, heq⟩)
        exact ih _ _ _ hfits (htaken.insert hmaterial hfree)
      · rw [if_pos hpool]
        refine ⟨iff_of_false ?_ (by simp), by simp⟩
        intro h
        exact hpool (fit_append_singleton.1 (hfront h)).2.2.1

theorem fit_nil : Fit codec [] := ⟨by simp, by simp, List.Pairwise.nil, List.nodup_nil⟩

theorem taken_nil : Taken codec [] KeyedMap.empty [] := ⟨by simp, by simp⟩

/-- What a directory that can be read and whose records fit loads. -/
def Loads (codec : Codec) (directory : Directory) (records : List ClientRecord) : Prop :=
  Readable codec directory records ∧ Fit codec records

theorem loadClients_spec (directory : Directory) :
    ((∃ records, Loads codec directory records) ↔ ∃ next, loadClients codec directory = .ok next) ∧
      ∀ next, loadClients codec directory = .ok next →
        ∃ records addresses, Loads codec directory records ∧
          Taken codec records next addresses := by
  have hvalid := fun records => @validateFrom_spec codec records [] KeyedMap.empty
    [] fit_nil taken_nil
  have hloads : ∀ records, Loads codec directory records →
      ∃ next, loadClients codec directory = .ok next := by
    rintro records ⟨hread, hfit⟩
    obtain ⟨next, hnext⟩ := (hvalid records).1.1 hfit
    exact ⟨next, by rw [loadClients, (readRecords_ok_iff _ _).2 hread]; exact hnext⟩
  have hloaded : ∀ next, loadClients codec directory = .ok next →
      ∃ records addresses, Loads codec directory records ∧ Taken codec records next addresses := by
    intro next hnext
    rw [loadClients] at hnext
    cases hread : readRecords codec directory with
    | error error => rw [hread] at hnext; cases hnext
    | ok records =>
      rw [hread] at hnext
      obtain ⟨addresses, htaken⟩ := (hvalid records).2 next hnext
      exact ⟨records, addresses,
        ⟨(readRecords_ok_iff _ _).1 hread, (hvalid records).1.2 ⟨next, hnext⟩⟩, htaken⟩
  refine ⟨⟨fun ⟨records, h⟩ => hloads records h, ?_⟩, hloaded⟩
  rintro ⟨next, hnext⟩
  obtain ⟨records, -, h, -⟩ := hloaded next hnext
  exact ⟨records, h⟩

/-! ## Bringing the clients to the loaded set -/

/-- What a reload makes of a loaded client, given who is active under its id. -/
def afterReload (before : Option RegisteredClient) (client : RegisteredClient) : RegisteredClient :=
  match before with
  | some current => if current.stands client then
    { current with record := client.record } else client
  | none => client

theorem reconcileOne_fst (s : Registry × Bool) (e : ClientId × RegisteredClient) :
    (reconcileOne s e).1 = s.1.insert e.1 (afterReload (s.1.get? e.1) e.2) := by
  rw [reconcileOne]
  cases s.1.get? e.1 with
  | none => rfl
  | some current =>
    dsimp only [afterReload]
    split <;> rfl

theorem get?_foldl_reconcileOne (entries : List (ClientId × RegisteredClient)) :
    ∀ s : Registry × Bool, (entries.map Prod.fst).Nodup →
      (∀ id client, (id, client) ∈ entries →
        (entries.foldl reconcileOne s).1.get? id = some (afterReload (s.1.get? id) client)) ∧
      ∀ id, id ∉ entries.map Prod.fst → (entries.foldl reconcileOne s).1.get? id = s.1.get? id := by
  induction entries with
  | nil => exact fun s _ => ⟨by simp, by simp⟩
  | cons e entries ih =>
    intro s hnodup
    rw [List.map_cons, List.nodup_cons] at hnodup
    obtain ⟨hin, hout⟩ := ih (reconcileOne s e) hnodup.2
    rw [List.foldl_cons]
    constructor
    · intro id client hmem
      rcases List.mem_cons.1 hmem with rfl | hmem
      · rw [hout id hnodup.1, reconcileOne_fst, get?_insert_self]
      · have hne : id ≠ e.1 := fun heq =>
          hnodup.1 (heq ▸ List.mem_map.2 ⟨(id, client), hmem, rfl⟩)
        rw [hin id client hmem, reconcileOne_fst, get?_insert, if_neg hne]
    · intro id hid
      rw [List.map_cons, List.mem_cons, not_or] at hid
      rw [hout id hid.2, reconcileOne_fst, get?_insert, if_neg hid.1]

theorem get?_reconcileClients (active next : Registry) (id : ClientId) :
    (reconcileClients active next).1.get? id =
      (next.get? id).map (afterReload (active.get? id)) := by
  obtain ⟨hin, hout⟩ := get?_foldl_reconcileOne next.entries
    (active.retain fun id _ => (next.get? id).isSome, active.entries.any fun e =>
      (next.get? e.1).isNone)
    next.nodup
  show (next.entries.foldl reconcileOne _).1.get? id = _
  cases hnext : next.get? id with
  | none =>
    rw [hout id (fun hmem => ?_), get?_retain]
    · simp [hnext]
    · obtain ⟨e, he, rfl⟩ := List.mem_map.1 hmem
      exact get?_eq_none_iff.1 hnext e he rfl
  | some client =>
    have hkept : (active.retain fun id _ => (next.get? id).isSome).get? id = active.get? id := by
      rw [get?_retain]
      cases active.get? id with
      | none => rfl
      | some current => simp [hnext]
    rw [hin id client (get?_eq_some_iff.1 hnext), hkept, map_some]

/-- Who is active under an id with the key and the address of a client. -/
def Standing (active : Registry) (id : ClientId) (client current : RegisteredClient) : Prop :=
  active.get? id = some current ∧ current.key = client.key ∧
    current.record.virtualIpv4 = client.record.virtualIpv4

/-- No two clients share a virtual address. -/
def AddressesDistinct (active : Registry) : Prop :=
  ∀ id id' client client', active.get? id = some client → active.get? id' = some client' →
    client.record.virtualIpv4 = client'.record.virtualIpv4 → id = id'

/-- What a reload that loaded `records` leaves of the clients that were active. -/
structure Reloaded (codec : Codec) (records : List ClientRecord) (active after : Registry) :
    Prop where
  ids : ∀ id, (∃ client, after.get? id = some client) ↔
    ∃ r ∈ records, ∃ key, r.token.material codec = .ok (id, key)
  loaded : ∀ r ∈ records, ∀ id key, r.token.material codec = .ok (id, key) →
    ∃ client, after.get? id = some client ∧ client.record = r ∧ client.key = key
  kept : ∀ id client current, after.get? id = some client → Standing active id client current →
    client.sessions = current.sessions
  fresh : ∀ id client, after.get? id = some client →
    (¬ ∃ current, Standing active id client current) →
    client.sessions = KeyedMap.empty
  addresses : AddressesDistinct after

theorem Reloaded.sessions_iff {active after : Registry} (h : Reloaded codec records active after)
    {id : ClientId} {client current : RegisteredClient} (hclient : after.get? id = some client)
    (hcurrent : active.get? id = some current) (hsessions : current.sessions ≠ KeyedMap.empty) :
    client.sessions = current.sessions ↔ Standing active id client current := by
  constructor
  · intro hsame
    by_contra hnot
    refine hsessions (hsame ▸ h.fresh id client hclient ?_)
    rintro ⟨other, hother⟩
    obtain rfl : current = other := some.inj (hcurrent.symm.trans hother.1)
    exact hnot hother
  · exact h.kept id client current hclient

theorem Taken.addressesDistinct {next : Registry} (hfit : Fit codec records)
    (h : Taken codec records next addresses) : AddressesDistinct next := by
  intro id id' client client' hclient hclient' hsame
  obtain ⟨r, hr, key, hkey, rfl⟩ := (h.clients id client).1 hclient
  obtain ⟨r', hr', key', hkey', rfl⟩ := (h.clients id' client').1 hclient'
  obtain rfl : r = r' := List.inj_on_of_nodup_map hfit.addressesDistinct hr hr' hsame
  rw [hkey] at hkey'
  exact (Prod.mk.inj (Except.ok.inj hkey')).1

variable {current client : RegisteredClient}

theorem afterReload_of_stands
    (h : current.key = client.key ∧ current.record.virtualIpv4 = client.record.virtualIpv4) :
    afterReload (some current) client = { current with record := client.record } :=
  if_pos (decide_eq_true h)

theorem afterReload_of_not_stands
    (h : ¬ (current.key = client.key ∧ current.record.virtualIpv4 = client.record.virtualIpv4)) :
    afterReload (some current) client = client :=
  if_neg fun hstands => h (of_decide_eq_true hstands)

theorem afterReload_record (before : Option RegisteredClient) (client : RegisteredClient) :
    (afterReload before client).record = client.record := by
  cases before with
  | none => rfl
  | some current =>
    dsimp only [afterReload]
    split <;> rfl

theorem afterReload_key (before : Option RegisteredClient) (client : RegisteredClient) :
    (afterReload before client).key = client.key := by
  cases before with
  | none => rfl
  | some current =>
    dsimp only [afterReload]
    split
    · next hstands => exact (of_decide_eq_true hstands).1
    · rfl

theorem reloaded_reconcileClients {active next : Registry} (hfit : Fit codec records)
    (h : Taken codec records next addresses) :
    Reloaded codec records active (reconcileClients active next).1 where
  ids := by
    intro id
    simp only [get?_reconcileClients, map_eq_some_iff, h.clients]
    constructor
    · rintro ⟨-, -, ⟨r, hr, key, hkey, -⟩, -⟩
      exact ⟨r, hr, key, hkey⟩
    · rintro ⟨r, hr, key, hkey⟩
      exact ⟨_, _, ⟨r, hr, key, hkey, rfl⟩, rfl⟩
  loaded := by
    intro r hr id key hkey
    have hnext := (h.clients id _).2 ⟨r, hr, key, hkey, rfl⟩
    refine ⟨afterReload (active.get? id) ⟨r, id, key, KeyedMap.empty⟩, ?_,
      afterReload_record _ _, afterReload_key _ _⟩
    rw [get?_reconcileClients, hnext]
    rfl
  kept := by
    rintro id client current hclient ⟨hcurrent, hkey, haddress⟩
    rw [get?_reconcileClients, hcurrent, map_eq_some_iff] at hclient
    obtain ⟨loaded, -, rfl⟩ := hclient
    rw [afterReload_key] at hkey
    rw [afterReload_record] at haddress
    rw [afterReload_of_stands ⟨hkey, haddress⟩]
  fresh := by
    intro id client hclient hnone
    rw [get?_reconcileClients, map_eq_some_iff] at hclient
    obtain ⟨loaded, hloaded, rfl⟩ := hclient
    obtain ⟨r, -, key, -, rfl⟩ := (h.clients id loaded).1 hloaded
    cases hcurrent : active.get? id with
    | none => rfl
    | some current =>
      rw [afterReload_of_not_stands]
      intro hstands
      refine hnone ⟨current, hcurrent, ?_⟩
      rw [afterReload_key, afterReload_record]
      exact hstands
  addresses := by
    intro id id' client client' hclient hclient' hsame
    rw [get?_reconcileClients, map_eq_some_iff] at hclient hclient'
    obtain ⟨loaded, hloaded, rfl⟩ := hclient
    obtain ⟨loaded', hloaded', rfl⟩ := hclient'
    rw [afterReload_record, afterReload_record] at hsame
    exact h.addressesDistinct hfit id id' _ _ hloaded hloaded' hsame

/-! ## The packet loops between reloads -/

variable {active : Registry}

theorem AddressesDistinct.turn (h : AddressesDistinct active) (event : Event) :
    AddressesDistinct (turn crypto active event).1 := by
  intro id id' client client' hclient hclient' hsame
  rw [ClientRegistry.turn, withSessions, get?_mapValues, map_eq_some_iff]
    at hclient hclient'
  obtain ⟨before, hbefore, rfl⟩ := hclient
  obtain ⟨before', hbefore', rfl⟩ := hclient'
  exact h id id' before before' hbefore hbefore' hsame

theorem AddressesDistinct.step (h : AddressesDistinct active) (event : RegistryEvent) :
    AddressesDistinct (step codec crypto active event).1 := by
  cases event with
  | frame | reply | flush => exact h.turn _
  | refresh directory =>
    show AddressesDistinct (refreshClients codec directory active).1
    rw [refreshClients]
    cases hload : loadClients codec directory with
    | error error => exact h
    | ok next =>
      obtain ⟨records, addresses, hloads, htaken⟩ := (loadClients_spec directory).2 next hload
      exact (reloaded_reconcileClients hloads.2 htaken).addresses

/-- The enrolments of loaded clients. -/
def enrolments (next : Registry) : KeyedMap ClientId Enrolment :=
  next.mapValues fun _ client => client.view.enrolment

/-- A registry of records that passed `validate_records`. -/
def Validated (registry : KeyedMap ClientId Enrolment) : Prop :=
  ∃ codec records next, validateRecords codec records = .ok next ∧ registry = enrolments next

/-- No two clients of a registry that passed the check have one address. -/
theorem Validated.unique {registry : KeyedMap ClientId Enrolment} (h : Validated registry)
    {id id' : ClientId} {enrolment enrolment' : Enrolment} (hid : registry.get? id = some enrolment)
    (hid' : registry.get? id' = some enrolment')
    (hsame : enrolment.virtualIpv4 = enrolment'.virtualIpv4) : id = id' := by
  obtain ⟨codec, records, next, hnext, rfl⟩ := h
  have hspec := @validateFrom_spec codec records [] KeyedMap.empty [] fit_nil taken_nil
  obtain ⟨addresses, htaken⟩ := hspec.2 next hnext
  have hfit : Fit codec records := hspec.1.2 ⟨next, hnext⟩
  rw [enrolments, get?_mapValues, map_eq_some_iff] at hid hid'
  obtain ⟨client, hclient, rfl⟩ := hid
  obtain ⟨client', hclient', rfl⟩ := hid'
  exact htaken.addressesDistinct hfit id id' client client' hclient hclient' hsame

variable {directory : Directory}

theorem view_refresh {next : Registry} (hload : loadClients codec directory = .ok next)
    (active : Registry) (id : ClientId) :
    (view (reconcileClients active next).1).get? id =
      (Relay.reconcileClients (view active) (enrolments next)).get? id := by
  obtain ⟨records, addresses, -, htaken⟩ := (loadClients_spec directory).2 next hload
  rw [view, get?_mapValues, get?_reconcileClients, Relay.reconcileClients,
    get?_mapValues, enrolments, get?_mapValues, view, get?_mapValues]
  cases hnext : next.get? id with
  | none => rfl
  | some client =>
    obtain ⟨record, -, key, -, rfl⟩ := (htaken.clients id client).1 hnext
    cases active.get? id with
    | none => rfl
    | some current =>
      let loaded : RegisteredClient := ⟨record, id, key, KeyedMap.empty⟩
      -- The key and the address stand on one side just when they do on the other.
      have hstands : current.stands loaded = true ↔
          current.view.enrolment = loaded.view.enrolment := by
        rw [RegisteredClient.stands, decide_eq_true_iff, and_comm, ← Vector.toList_inj]
        exact (Enrolment.mk.injEq _ _ _ _).symm.to_iff
      change some (if current.stands loaded then { current with record := loaded.record }
        else loaded).view = some (if current.view.enrolment = loaded.view.enrolment then
          current.view
        else .enrolled loaded.view.enrolment)
      by_cases hsame : current.view.enrolment = loaded.view.enrolment
      · rw [if_pos hsame, if_pos (hstands.2 hsame)]
        obtain ⟨haddress, -⟩ := Enrolment.mk.inj hsame
        simp only [RegisteredClient.view, haddress]
      · rw [if_neg hsame, if_neg (mt hstands.1 hsame)]
        rfl

/-- What packets see of an event. A reload of a directory that does not load is none. -/
def RegistryEvent.seen (codec : Codec) : RegistryEvent → Option Event
  | .frame endpoint bytes env => some (.frame endpoint bytes env)
  | .reply packet env => some (.reply packet env)
  | .flush now env => some (.flush now env)
  | .refresh directory => (loadClients codec directory).toOption.map fun next =>
    .reload (enrolments next)

theorem view_turn (crypto : SessionCrypto) (active : Registry) {event : Event}
    (hturn : ∀ records, event ≠ .reload records) (id : ClientId) :
    (view (turn crypto active event).1).get? id =
      (Relay.step crypto (view active) event).1.get? id := by
  have henrolment := step_enrolment crypto (view active) event id
  have hview : (view active).get? id = (active.get? id).map RegisteredClient.view :=
    get?_mapValues _ _ _
  rw [hview] at henrolment
  rw [turn, withSessions, view, get?_mapValues, get?_mapValues]
  cases event with
  | reload records => exact absurd rfl (hturn records)
  | frame | reply | flush =>
    cases hactive : active.get? id with
    | none =>
      rw [hactive, map_none, map_none, map_eq_none_iff] at henrolment
      exact henrolment.symm
    | some client =>
      rw [hactive, map_some, map_some, map_eq_some_iff] at henrolment
      obtain ⟨after, hafter, hsame⟩ := henrolment
      rw [hafter]
      obtain ⟨enrolment, sessions⟩ := after
      subst hsame
      simp [RegisteredClient.view]

/-- The registry with its records refines the relay that packets see: after an event each client is
what the event makes of the clients packets saw. -/
theorem step_refines (codec : Codec) (crypto : SessionCrypto) (active : Registry)
    (event : RegistryEvent) (id : ClientId) : (view (step codec crypto active event).1).get? id =
      (((event.seen codec).map fun e => (Relay.step crypto (view active) e).1).getD
        (view active)).get? id := by
  cases event with
  | frame | reply | flush => exact view_turn crypto active (by rintro _ ⟨⟩) id
  | refresh directory =>
    show (view (refreshClients codec directory active).1).get? id = _
    rw [refreshClients, RegistryEvent.seen]
    cases hload : loadClients codec directory with
    | error error => rfl
    | ok next => exact view_refresh hload active id

/-! ## Exactness -/

theorem refreshClients_of_loads {changed : Option Nat}
    (h : (refreshClients codec directory active).2 = .ok changed) :
    ∃ records, Loads codec directory records ∧
      Reloaded codec records active (refreshClients codec directory active).1 := by
  rw [refreshClients] at h ⊢
  cases hload : loadClients codec directory with
  | error error => rw [hload] at h; cases h
  | ok next =>
    obtain ⟨records, addresses, hloads, htaken⟩ := (loadClients_spec directory).2 next hload
    exact ⟨records, hloads, reloaded_reconcileClients hloads.2 htaken⟩

theorem refreshClients_of_not_loads (active : Registry)
    (h : ¬ ∃ records, Loads codec directory records) :
    ∃ error, refreshClients codec directory active = (active, .error error) := by
  rw [refreshClients]
  cases hload : loadClients codec directory with
  | error error => exact ⟨error, rfl⟩
  | ok next => exact absurd ((loadClients_spec directory).1.2 ⟨next, hload⟩) h

/-- Reloading is exact. It succeeds exactly when the directory loads, and then leaves the loaded
records with the sessions whose client stands; when it fails it leaves everything; and from the
start of the relay on no two clients share an address while the lock is free. -/
theorem refresh_exact (codec : Codec) (crypto : SessionCrypto) :
    (∀ directory active, (∃ records, Loads codec directory records) ↔
      ∃ changed, (refreshClients codec directory active).2 = .ok changed) ∧
    (∀ directory active changed, (refreshClients codec directory active).2 = .ok changed →
      ∃ records, Loads codec directory records ∧
        Reloaded codec records active (refreshClients codec directory active).1 ∧
        ∀ id client current, (refreshClients codec directory active).1.get? id = some client →
          active.get? id = some current → current.sessions ≠ KeyedMap.empty →
          (client.sessions = current.sessions ↔ Standing active id client current)) ∧
    (∀ directory active, (¬ ∃ records, Loads codec directory records) →
      ∃ error, refreshClients codec directory active = (active, .error error)) ∧
    ∀ directory next, loadClients codec directory = .ok next → ∀ events,
      AddressesDistinct (Run.exec (step codec crypto) next events).state := by
  refine ⟨?_, ?_, fun directory active => refreshClients_of_not_loads active, ?_⟩
  · intro directory active
    constructor
    · intro hloads
      obtain ⟨next, hload⟩ := (loadClients_spec directory).1.1 hloads
      rw [refreshClients, hload]
      exact ⟨_, rfl⟩
    · rintro ⟨changed, hchanged⟩
      obtain ⟨records, hloads, -⟩ := refreshClients_of_loads hchanged
      exact ⟨records, hloads⟩
  · intro directory active changed hchanged
    obtain ⟨records, hloads, hreloaded⟩ := refreshClients_of_loads hchanged
    refine ⟨records, hloads, hreloaded, ?_⟩
    intro id client current hclient hcurrent hsessions
    exact hreloaded.sessions_iff hclient hcurrent hsessions
  · intro directory next hload events
    obtain ⟨records, addresses, hloads, htaken⟩ := (loadClients_spec directory).2 next hload
    have hstart : AddressesDistinct next := htaken.addressesDistinct hloads.2
    have hrun := @Run.exec_invariant _ _ _ (step codec crypto) next
      (fun c => AddressesDistinct c.state) hstart
    exact hrun (fun c event h => h.step event) events

end GamePath.Relay.ClientRegistry
