import Retonr.OllamaPackage.CargoArchive

/-! An accepted Cargo source archive is a well-formed tree, and its identity determines every
file of it. The scan checks one entry at a time against what it has booked; the invariant says
what has been booked in terms of the entries themselves. -/

namespace Retonr.CargoSource
open Text Framing List Retonr.Except

/-- The path of an entry whose path bytes are a text. -/
def Entry.path (entry : Entry) : Text := (decode entry.pathBytes).toOption.getD []

def Entry.isDirectory (entry : Entry) : Prop := entry.header.entryType = .directory

def Entry.isRegular (entry : Entry) : Prop := entry.header.entryType = .regular

instance (entry : Entry) : Decidable entry.isRegular := inferInstanceAs (Decidable (_ = _))

/-- The content bytes a regular entry declares. -/
def Entry.declaredBytes (entry : Entry) : Nat := if entry.isRegular then (entry.header.size.getD 0).toNat else 0

/-- A tree below one root directory, in the order of its paths, with every parent listed
before its children. -/
structure SourceTree (root : Text) (limits : CargoSourceClosureLimits) (entries : List Entry) : Prop where
  rootFirst : ∀ first ∈ entries.head?, first.path = root ∧ first.isDirectory
  kinds : ∀ entry ∈ entries, entry.isDirectory ∨ entry.isRegular
  spelled : ∀ entry ∈ entries, encode entry.path = entry.pathBytes
  portable : ∀ entry ∈ entries, validatePortableRelativePath entry.path limits.maximumPathBytes.toNat = .ok ()
  below : ∀ entry ∈ entries, entry.path = root ∨ ∃ rest, entry.path = root ++ '/' :: rest
  increasing : entries.Pairwise fun entry later => entry.pathBytes < later.pathBytes
  distinct : entries.Pairwise fun entry later => toAsciiLowercase entry.path ≠ toAsciiLowercase later.path
  parents : ∀ before entry after, entries = before ++ entry :: after → entry.path ≠ root →
    ∃ parent name, entry.path = parent ++ '/' :: name ∧ '/' ∉ name ∧ ∃ directory ∈ before, directory.isDirectory ∧ directory.path = parent
  counted : entries.length ≤ limits.maximumArchiveEntries.toNat
  pathBytes : (entries.map fun entry => entry.pathBytes.length).sum ≤ limits.maximumTotalPathBytes.toNat
  contentBytes : (entries.map Entry.declaredBytes).sum ≤ limits.maximumArchiveBytes.toNat

/-- What the scan has checked of an entry against the entries before it. -/
structure Admitted (root : Text) (limits : CargoSourceClosureLimits) (earlier : List Entry) (entry : Entry) : Prop where
  rootFirst : earlier = [] → entry.path = root ∧ entry.isDirectory
  kind : entry.isDirectory ∨ entry.isRegular
  spelled : encode entry.path = entry.pathBytes
  portable : validatePortableRelativePath entry.path limits.maximumPathBytes.toNat = .ok ()
  below : entry.path = root ∨ ∃ rest, entry.path = root ++ '/' :: rest
  later : ∀ other ∈ earlier.getLast?, other.pathBytes < entry.pathBytes
  fresh : ∀ other ∈ earlier, toAsciiLowercase other.path ≠ toAsciiLowercase entry.path
  parent : entry.path ≠ root → ∃ parent name, entry.path = parent ++ '/' :: name ∧ '/' ∉ name ∧
    ∃ directory ∈ earlier, directory.isDirectory ∧ directory.path = parent
  counted : earlier.length + 1 ≤ limits.maximumArchiveEntries.toNat
  pathBytes : (earlier.map fun entry => entry.pathBytes.length).sum + entry.pathBytes.length ≤ limits.maximumTotalPathBytes.toNat
  contentBytes : (earlier.map Entry.declaredBytes).sum + entry.declaredBytes ≤ limits.maximumArchiveBytes.toNat

namespace SourceTree

variable {root : Text} {limits : CargoSourceClosureLimits} {entries earlier : List Entry} {entry : Entry}

theorem nil : SourceTree root limits [] := by
  constructor <;> simp

theorem snoc (tree : SourceTree root limits earlier) (admitted : Admitted root limits earlier entry) :
    SourceTree root limits (earlier ++ [entry]) where
  rootFirst first head := by
    cases earlier with
    | nil =>
      obtain rfl : entry = first := by simpa using head
      exact admitted.rootFirst rfl
    | cons other rest => exact tree.rootFirst first (by simpa using head)
  kinds := forall_mem_append.mpr ⟨tree.kinds, by simpa using admitted.kind⟩
  spelled := forall_mem_append.mpr ⟨tree.spelled, by simpa using admitted.spelled⟩
  portable := forall_mem_append.mpr ⟨tree.portable, by simpa using admitted.portable⟩
  below := forall_mem_append.mpr ⟨tree.below, by simpa using admitted.below⟩
  increasing := by
    refine pairwise_append.mpr ⟨tree.increasing, by simp, ?_⟩
    -- The last of the earlier entries is the greatest of them.
    intro other member last same
    obtain rfl := mem_singleton.mp same
    rcases eq_nil_or_concat earlier with rfl | ⟨front, latest, rfl⟩
    · cases member
    rw [concat_eq_append] at member
    have least : latest.pathBytes < last.pathBytes := admitted.later latest (by simp)
    rcases mem_append.mp member with inside | same
    · have ordered := (pairwise_append.mp (concat_eq_append ▸ tree.increasing)).2.2
      exact Std.lt_trans (ordered other inside latest (by simp)) least
    · obtain rfl := mem_singleton.mp same
      exact least
  distinct := pairwise_append.mpr ⟨tree.distinct, by simp, fun other member last same => by
    obtain rfl := mem_singleton.mp same
    exact admitted.fresh other member⟩
  parents before other after split inner := by
    rcases eq_nil_or_concat after with rfl | ⟨rest, last, rfl⟩
    · obtain ⟨rfl, rfl⟩ := append_inj' split rfl |>.imp id singleton_inj.mp
      exact admitted.parent inner
    · rw [concat_eq_append, ← cons_append, ← append_assoc] at split
      exact tree.parents before other rest (append_inj' split rfl).1 inner
  counted := by simpa using admitted.counted
  pathBytes := by simpa using admitted.pathBytes
  contentBytes := by simpa using admitted.contentBytes

end SourceTree

variable {entry : Entry} {path : Text}

theorem Entry.path_of_decode (decoded : decode entry.pathBytes = .ok path) : entry.path = path ∧ encode path = entry.pathBytes := by
  simp [Entry.path, decoded, Except.toOption, encode_of_decode decoded]

variable {maximum : Nat}

theorem checkedCount_eq_ok {count next : Nat} (checked : checkedCount (min count (usizeLimit - 1)) maximum = .ok next) :
    count + 1 ≤ maximum := by
  simp only [checkedCount, bind_eq_ok, require_eq_ok, exists_unit] at checked
  omega

variable {root : Text}

theorem isPrefixOf_root_iff : (root ++ ['/']).isPrefixOf path = true ↔ ∃ rest, path = root ++ '/' :: rest := by
  rw [ isPrefixOf_iff_prefix]
  exact ⟨fun ⟨rest, same⟩ => ⟨rest, by simp [← same]⟩, fun ⟨rest, same⟩ => ⟨rest, by simp [same]⟩⟩

theorem validatePath_eq_ok {bytes : Bytes} (checked : validatePath bytes root maximum = .ok path) :
    decode bytes = .ok path ∧ validatePortableRelativePath path maximum = .ok () ∧ (path = root ∨ ∃ rest, path = root ++ '/' :: rest) := by
  simp only [validatePath, bind_eq_ok, mapError_eq_ok, require_eq_ok, exists_unit, isPrefixOf_root_iff] at checked
  obtain ⟨found, decoded, portable, below, same⟩ := checked
  cases same
  exact ⟨decoded, portable, below⟩

variable {relative : Text}

theorem stripRoot_eq_ok (stripped : stripRoot path root = .ok relative) : path = root ++ '/' :: relative := by
  simp only [stripRoot] at stripped
  split at stripped
  next checked =>
    obtain ⟨rest, rfl⟩ := isPrefixOf_root_iff.mp checked.1
    cases stripped
    have dropped : (root ++ '/' :: rest).drop (root.length + 1) = rest := by
      rw [← drop_drop, drop_left, drop_succ_cons, drop_zero]
    rw [dropped]
  · cases stripped

/-- What the scan has booked of the entries before it. What a file fact says of its entry
is up to the visitor. -/
structure Scanned (holds : Entry → FileFact → Prop) (root : Text) (limits : CargoSourceClosureLimits) (entries : List Entry)
    (state : ScanState) : Prop where
  sameRoot : state.root = root
  tree : SourceTree root limits entries
  directories : ∀ path, path ∈ state.directories ↔ ∃ entry ∈ entries, entry.isDirectory ∧ entry.path = path
  keys : ∀ key, key ∈ state.portableKeys ↔ ∃ entry ∈ entries, toAsciiLowercase entry.path = key
  previous : state.previous = entries.getLast?.map Entry.pathBytes
  counted : state.files.rows.length + state.directories.length = entries.length
  pathBytes : state.totalPathBytes = (entries.map fun entry => entry.pathBytes.length).sum
  contentBytes : state.totalBytes = (entries.map Entry.declaredBytes).sum
  booked : ∀ relative fact, state.files.find relative = some fact →
    ∃ entry ∈ entries, entry.isRegular ∧ entry.path = root ++ '/' :: relative ∧ holds entry fact
  listed : ∀ entry ∈ entries, entry.isRegular → ∃ relative fact, entry.path = root ++ '/' :: relative ∧
    state.files.find relative = some fact

namespace Scanned

variable {holds : Entry → FileFact → Prop} {root : Text} {limits : CargoSourceClosureLimits} {earlier : List Entry} {state : ScanState}

theorem new : Scanned holds root limits [] (ScanState.new root) where
  sameRoot := rfl
  tree := .nil
  directories := by simp [ScanState.new]
  keys := by simp [ScanState.new]
  previous := rfl
  counted := rfl
  pathBytes := rfl
  contentBytes := rfl
  booked := by simp [ScanState.new]
  listed := by simp

variable {entry : Entry}

section
variable (scanned : Scanned holds root limits earlier state)
include scanned

theorem parents {booked : ScanState}
    (checked : booked.validateParentAndRoot entry.path entry.header.entryType = .ok ()) (previous : booked.previous.isSome)
    (files : booked.files = state.files) (directories : booked.directories = state.directories) (sameRoot : booked.root = state.root) :
    (earlier = [] → entry.path = root ∧ entry.isDirectory) ∧
      (entry.path ≠ root → ∃ parent name, entry.path = parent ++ '/' :: name ∧ '/' ∉ name ∧
        ∃ directory ∈ earlier, directory.isDirectory ∧ directory.path = parent) := by
  simp only [ScanState.validateParentAndRoot, files, directories, sameRoot, scanned.sameRoot, previous, bind_eq_ok,
    require_eq_ok, exists_unit] at checked
  obtain ⟨atRoot, above⟩ := checked
  constructor
  · rintro rfl
    have none : state.files.rows = [] ∧ state.directories = [] := by simpa [← length_eq_zero_iff] using scanned.counted
    by_contra other
    refine atRoot ⟨trivial, none, ?_⟩
    simpa [Entry.isDirectory, or_iff_not_imp_left] using other
  · intro inner
    simp only [ne_eq, inner, not_false_eq_true, if_true] at above
    split at above
    · cases above
    next parent name split =>
      obtain ⟨path, last⟩ := rsplitOnce_eq_some.mp split
      exact ⟨parent, name, path, last, (scanned.directories parent).mp (by simpa using above)⟩

theorem beginEntry {path : Text} {kind : EntryType} {booked : ScanState}
    (begun : state.beginEntry entry limits = .ok (path, kind, booked)) :
    path = entry.path ∧ kind = entry.header.entryType ∧
      booked = { state with portableKeys := toAsciiLowercase entry.path :: state.portableKeys,
                            totalPathBytes := state.totalPathBytes + entry.pathBytes.length, previous := some entry.pathBytes } ∧
      (entry.isDirectory ∨ entry.isRegular →
        (earlier.map Entry.declaredBytes).sum + entry.declaredBytes ≤ limits.maximumArchiveBytes.toNat →
        Admitted root limits earlier entry) := by
  simp only [ScanState.beginEntry, bind_eq_ok, require_eq_ok, exists_unit, pure, Except.pure, Except.ok.injEq,
    Prod.mk.injEq] at begun
  obtain ⟨_, count, found, valid, fresh, ⟨-, total⟩, later, -, parents, rfl, rfl, rfl⟩ := begun
  obtain ⟨decoded, portable, below⟩ := validatePath_eq_ok valid
  obtain ⟨rfl, spelled⟩ := Entry.path_of_decode decoded
  obtain ⟨rootFirst, parent⟩ := scanned.parents parents rfl rfl rfl rfl
  refine ⟨rfl, rfl, rfl, fun kind content => ⟨rootFirst, kind, spelled, portable, scanned.sameRoot ▸ below, ?_, ?_, parent, ?_, ?_, content⟩⟩
  · intro other last
    exact later other.pathBytes (by rw [scanned.previous]; simpa using ⟨other, last, rfl⟩)
  · intro other member same
    exact fresh ((scanned.keys _).mpr ⟨other, member, same⟩)
  · rw [← scanned.counted]
    exact checkedCount_eq_ok count
  · rw [← scanned.pathBytes]
    exact total

theorem book (admitted : Admitted root limits earlier entry)
    {next : ScanState} (sameRoot : next.root = state.root) (keys : next.portableKeys = toAsciiLowercase entry.path :: state.portableKeys)
    (previous : next.previous = some entry.pathBytes) (pathBytes : next.totalPathBytes = state.totalPathBytes + entry.pathBytes.length)
    (contentBytes : next.totalBytes = state.totalBytes + entry.declaredBytes)
    (directories : ∀ path, path ∈ next.directories ↔ path ∈ state.directories ∨ entry.isDirectory ∧ entry.path = path)
    (counted : next.files.rows.length + next.directories.length = state.files.rows.length + state.directories.length + 1)
    (booked : ∀ relative fact, next.files.find relative = some fact → state.files.find relative = some fact ∨
      entry.isRegular ∧ entry.path = root ++ '/' :: relative ∧ holds entry fact)
    (kept : ∀ relative fact, state.files.find relative = some fact → next.files.find relative = some fact)
    (listed : entry.isRegular → ∃ relative fact, entry.path = root ++ '/' :: relative ∧ next.files.find relative = some fact) :
    Scanned holds root limits (earlier ++ [entry]) next where
  sameRoot := sameRoot.trans scanned.sameRoot
  tree := scanned.tree.snoc admitted
  directories path := by
    rw [directories, scanned.directories]
    simp only [mem_append, mem_singleton, or_and_right, exists_or, exists_eq_left]
  keys key := by
    rw [keys, mem_cons, scanned.keys]
    simp only [mem_append, mem_singleton, or_and_right, exists_or, exists_eq_left]
    rw [or_comm, eq_comm]
  previous := by simp [previous]
  counted := by simp [counted, scanned.counted]
  pathBytes := by simp [pathBytes, scanned.pathBytes]
  contentBytes := by simp [contentBytes, scanned.contentBytes]
  booked relative fact found := by
    rcases booked relative fact found with before | ⟨regular, path, fits⟩
    · obtain ⟨other, member, known⟩ := scanned.booked relative fact before
      exact ⟨other, by simp [member], known⟩
    · exact ⟨entry, by simp, regular, path, fits⟩
  listed other member regular := by
    rcases mem_append.mp member with inside | same
    · obtain ⟨relative, fact, path, found⟩ := scanned.listed other inside regular
      exact ⟨relative, fact, path, kept relative fact found⟩
    · obtain rfl := mem_singleton.mp same
      exact listed regular

theorem unbooked (admitted : Admitted root limits earlier entry)
    {relative : Text} (path : entry.path = root ++ '/' :: relative) : state.files.find relative = none := by
  by_contra found
  obtain ⟨fact, found⟩ := Option.ne_none_iff_exists'.mp found
  obtain ⟨other, member, -, same, -⟩ := scanned.booked relative fact found
  exact admitted.fresh other member (by rw [same, path])

omit scanned in
theorem observeWith {σ : Type} {visit : σ → Text → UInt64 → Reader → Except CargoSourceClosureError (FileFact × σ)}
    (honest : ∀ visitor relative entry declared fact after, entry.isRegular → entry.header.size = some declared →
      visit visitor relative declared entry.reader = .ok (fact, after) → fact.size = declared → holds entry fact)
    (scanned : Scanned holds root limits earlier state) {visitor after : σ} {next : ScanState}
    (observed : state.observeWith visit limits visitor entry = .ok (next, after)) : Scanned holds root limits (earlier ++ [entry]) next := by
  simp only [ScanState.observeWith, bind_eq_ok, Prod.exists] at observed
  obtain ⟨path, kind, begun, started, rest⟩ := observed
  obtain ⟨rfl, rfl, rfl, admits⟩ := scanned.beginEntry started
  split at rest
  next directory =>
    cases rest
    have kind : entry.isDirectory := directory
    have declares : entry.declaredBytes = 0 := by simp [Entry.declaredBytes, Entry.isRegular, directory]
    have bounded := scanned.tree.contentBytes
    have admitted := admits (.inl kind) (by omega)
    have absent : entry.path ∉ state.directories := by
      intro listed
      obtain ⟨other, member, -, same⟩ := (scanned.directories _).mp listed
      exact admitted.fresh other member (by rw [same])
    refine scanned.book admitted rfl rfl rfl rfl (by simp [declares]) (fun path => ?_) ?_ (fun _ _ found => .inl found)
      (fun _ _ found => found) (fun regular => ?_)
    · simp [kind, or_comm, eq_comm]
    · simp [length_insert_of_not_mem absent, Nat.add_assoc]
    · simp [Entry.isRegular, directory] at regular
  next file =>
    simp only [bind_eq_ok, require_eq_ok, exists_unit, Prod.exists] at rest
    obtain ⟨⟨regular, -⟩, declared, size, ⟨-, total⟩, relative, stripped, fact, last, visited, sized, same⟩ := rest
    cases same
    have size : entry.header.size = some declared := by
      cases read : entry.header.size <;> simp_all [readField]
    have kind : entry.isRegular := regular
    have declares : entry.declaredBytes = declared.toNat := by simp [Entry.declaredBytes, kind, size]
    have path : entry.path = root ++ '/' :: relative := scanned.sameRoot ▸ stripRoot_eq_ok stripped
    have admitted := admits (.inr kind) (by rw [← scanned.contentBytes, declares]; exact total)
    have absent := scanned.unbooked admitted path
    refine scanned.book admitted rfl rfl rfl rfl (by simp [declares]) (fun path => ?_) ?_ (fun other found known => ?_)
      (fun other found known => ?_) (fun _ => ⟨relative, fact, path, by simp⟩)
    · simp [Entry.isDirectory, regular]
    · simp [Table.rows_upsert_of_find_eq_none absent]
      omega
    · rw [Table.find_upsert] at known
      split at known
      next same =>
        cases known
        exact .inr ⟨kind, same ▸ path, honest visitor relative entry declared fact _ kind size visited sized⟩
      · exact .inl known
    · rw [Table.find_upsert, if_neg, known]
      rintro rfl
      rw [absent] at known
      cases known

omit scanned in
/-- A fold whose steps each book their entry books all of them. -/
theorem run {σ : Type} (view : σ → ScanState) (step : σ → Entry → Except CargoSourceClosureError σ)
    (keeps : ∀ earlier before entry after, Scanned holds root limits earlier (view before) → step before entry = .ok after →
      Scanned holds root limits (earlier ++ [entry]) (view after))
    {entries : List (Option Entry)} {before after : σ} (scanned : Scanned holds root limits earlier (view before))
    (ran : entries.foldlM (fun state entry => do
      let some entry := entry | .error .invalidArchive
      step state entry) before = .ok after) :
    ∃ members, entries = members.map some ∧ Scanned holds root limits (earlier ++ members) (view after) := by
  induction entries generalizing earlier before with
  | nil =>
    cases ran
    exact ⟨[], rfl, by simpa using scanned⟩
  | cons entry entries ih =>
    rw [foldlM_cons, bind_eq_ok] at ran
    obtain ⟨between, stepped, rest⟩ := ran
    cases entry with
    | none => cases stepped
    | some entry =>
      obtain ⟨members, rfl, booked⟩ := ih (keeps _ _ _ _ scanned stepped) rest
      exact ⟨entry :: members, rfl, by simpa using booked⟩

theorem capture (captured : Table Text Bytes) :
    Scanned holds root limits earlier { state with captured } where
  __ := scanned

end

end Scanned

/-- What a reader gives when it is read to its end. -/
def Entry.content (entry : Entry) : Option Bytes := readToEnd entry.reader.fails entry.reader.reads

theorem readToEnd_of_hashReads {declared : Nat} {fails : Bool} {content whole : Bytes} {reads : List Bytes}
    (hashed : hashReads declared fails content reads = .ok whole) : ∃ rest, readToEnd fails reads = some rest ∧ whole = content ++ rest := by
  induction reads generalizing content with
  | nil =>
    simp only [hashReads] at hashed
    split at hashed
    · cases hashed
    next succeeds =>
      cases hashed
      exact ⟨[], by simp [readToEnd, succeeds], by simp⟩
  | cons read reads ih =>
    cases read with
    | nil =>
      cases hashed
      exact ⟨[], rfl, by simp⟩
    | cons byte read =>
      simp only [hashReads] at hashed
      split at hashed
      · obtain ⟨rest, ends, rfl⟩ := ih hashed
        exact ⟨byte :: read ++ rest, by simp [readToEnd, ends], by simp⟩
      · cases hashed

/-- The fact booked for a file is the measure of what was read of it. -/
def Measures (entry : Entry) (fact : FileFact) : Prop :=
  ∃ content, entry.content = some content ∧ fact.digest = Digest.sha256 content ∧ fact.size.toNat = content.length ∧
    content.length = entry.declaredBytes

variable {limits : CargoSourceClosureLimits}

theorem hashEntry_eq_ok {reader : Reader} {declared : UInt64} {retain : Bool} {fact : FileFact}
    {retained : Option Bytes} (hashed : hashEntry reader declared retain limits = .ok (fact, retained)) :
    ∃ content, readToEnd reader.fails reader.reads = some content ∧ fact.digest = Digest.sha256 content ∧
      fact.size.toNat = content.length ∧ content.length = declared.toNat := by
  simp only [hashEntry, bind_eq_ok, require_eq_ok, exists_unit, pure, Except.pure, Except.ok.injEq, Prod.mk.injEq] at hashed
  obtain ⟨-, content, read, length, rfl, -⟩ := hashed
  obtain ⟨_, read, rfl⟩ := readToEnd_of_hashReads read
  refine ⟨content, read, rfl, ?_, length⟩
  have := declared.toNat_lt
  simp only [UInt64.toNat_ofNat']
  omega

theorem Scanned.observe {earlier : List Entry} {state next : ScanState}
    (scanned : Scanned Measures root limits earlier state) {capture : Text → Bool}
    (observed : state.observe capture limits entry = .ok next) : Scanned Measures root limits (earlier ++ [entry]) next := by
  simp only [ScanState.observe, bind_eq_ok, Prod.exists] at observed
  obtain ⟨after, retained, seen, rest⟩ := observed
  have booked : Scanned Measures root limits (earlier ++ [entry]) after := by
    refine scanned.observeWith ?_ seen
    intro visitor relative entry declared fact after regular size visited _
    simp only [bind_eq_ok, Prod.exists, pure, Except.pure, Except.ok.injEq, Prod.mk.injEq] at visited
    obtain ⟨_, _, hashed, rfl, -⟩ := visited
    obtain ⟨content, read, digest, length, declares⟩ := hashEntry_eq_ok hashed
    exact ⟨content, read, digest, length, by simp [Entry.declaredBytes, regular, size, declares]⟩
  split at rest
  · cases rest
    exact booked.capture _
  · cases rest
    exact booked

/-- No regular file of the tree lies above another entry. -/
theorem SourceTree.file_is_leaf {entries : List Entry}
    (tree : SourceTree root limits entries) (single : '/' ∉ root) {file : Entry} (isFile : file ∈ entries) (regular : file.isRegular)
    (member : entry ∈ entries) (rest : Text) : entry.path ≠ file.path ++ '/' :: rest := by
  -- Climbing from the entry, the parent is a listed directory, and it is either the file or still below it.
  induction length : entry.path.length using Nat.strong_induction_on generalizing entry rest with
  | _ size ih =>
    intro below
    have inner : entry.path ≠ root := by
      intro same
      rw [← same, below] at single
      simp at single
    obtain ⟨before, after, split⟩ := append_of_mem member
    obtain ⟨parent, name, path, last, directory, listed, isDirectory, found⟩ := tree.parents before entry after split inner
    have known : directory ∈ entries := by simp [split, listed]
    have shorter : directory.path.length < size := by
      rw [← length, path, found]
      simp
    rcases before_last_separator last (path.symm.trans below) with here | ⟨between, further⟩
    · have symmetric : Std.Symm fun entry later : Entry => toAsciiLowercase entry.path ≠ toAsciiLowercase later.path :=
        ⟨fun _ _ apart same => apart same.symm⟩
      refine tree.distinct.forall known isFile ?_ (by rw [found, here])
      rintro rfl
      cases isDirectory.symm.trans regular
    · exact ih _ shorter known between rfl (by rw [found, further])

theorem selfDelimiting_row : SelfDelimiting (fun row : Text × FileFact => byteLen row.1 < 2 ^ 64) fun row =>
    sized (encode row.1) ++ (bigEndian 8 row.2.size.toNat ++ sized (encode row.2.digest.asStr)) := by
  have facts := (SelfDelimiting.uint64.pair Digest.selfDelimiting).comap (fun fact : FileFact => (fact.size, fact.digest)) (by
    rintro ⟨digest, size⟩ ⟨other, otherSize⟩ same
    simp_all)
  intro row other fits alsoFits
  exact (SelfDelimiting.sizedText.pair facts) ⟨fits, trivial, trivial⟩ ⟨alsoFits, trivial, trivial⟩

/-- The identity bytes determine the whole map from paths to facts. -/
theorem find_of_treeIdBytes {files others : Table Text FileFact} (fits : ∀ path fact, files.find path = some fact → byteLen path < 2 ^ 64)
    (alsoFit : ∀ path fact, others.find path = some fact → byteLen path < 2 ^ 64) (same : treeIdBytes files = treeIdBytes others)
    (path : Text) : files.find path = others.find path := by
  have members : ∀ (table : Table Text FileFact) row,
      row ∈ table.rows.insertionSort (fun left right => encode left.1 ≤ encode right.1) ↔ table.find row.1 = some row.2 := by
    intro table row
    rw [mem_insertionSort, ← Table.mem_rows_iff]
  have sorted := selfDelimiting_row.flatMap_to_end (by simp [sized, bigEndian]) (fun row member => fits _ _ ((members files row).mp member))
    (fun row member => alsoFit _ _ ((members others row).mp member)) (append_cancel_left same)
  apply Option.ext
  intro fact
  rw [← members files (path, fact), sorted, members]

theorem byteLen_of_portable (portable : validatePortableRelativePath path maximum = .ok ()) : byteLen path ≤ maximum := by
  simp only [validatePortableRelativePath, bind_eq_ok, require_eq_ok, exists_unit, Bool.or_eq_true, decide_eq_true_eq,
    not_or] at portable
  obtain ⟨⟨⟨⟨⟨⟨⟨-, bounded⟩, -⟩, -⟩, -⟩, -⟩, -⟩, -⟩ := portable
  exact Nat.le_of_not_lt bounded

/-- The files of a snapshot are the regular entries of the tree below the root. -/
structure FilesOf (holds : Entry → FileFact → Prop) (root : Text) (entries : List Entry) (files : Table Text FileFact) : Prop where
  booked : ∀ relative fact, files.find relative = some fact →
    ∃ entry ∈ entries, entry.isRegular ∧ entry.path = root ++ '/' :: relative ∧ holds entry fact
  listed : ∀ entry ∈ entries, entry.isRegular → ∃ relative fact, entry.path = root ++ '/' :: relative ∧ files.find relative = some fact

/-- What an accepted scan establishes. -/
structure Accepted (holds : Entry → FileFact → Prop) (root : Text) (limits : CargoSourceClosureLimits) (entries : List (Option Entry))
    (members : List Entry) (snapshot : TreeSnapshot) : Prop where
  whole : entries = members.map some
  tree : SourceTree root limits members
  rooted : ∃ first rest, members = first :: rest ∧ first.path = root ∧ first.isDirectory
  leaves : ∀ file ∈ members, file.isRegular → ∀ entry ∈ members, ∀ rest, entry.path ≠ file.path ++ '/' :: rest
  files : FilesOf holds root members snapshot.files
  identity : snapshot.id = Digest.sha256 (treeIdBytes snapshot.files)

variable {holds : Entry → FileFact → Prop} {entries : List (Option Entry)} {members : List Entry} {snapshot : TreeSnapshot}

theorem Scanned.accepted {state : ScanState} (scanned : Scanned holds root limits members state)
    (valid : validateRoot root = .ok ()) (whole : entries = members.map some) (finished : state.finish = .ok snapshot) :
    Accepted holds root limits entries members snapshot := by
  simp only [validateRoot, bind_eq_ok, require_eq_ok, exists_unit] at valid
  simp only [ScanState.finish, bind_eq_ok, require_eq_ok, exists_unit] at finished
  obtain ⟨⟨rooted, -⟩, same⟩ := finished
  cases same
  refine ⟨whole, scanned.tree, ?_, fun file isFile regular entry member rest =>
    scanned.tree.file_is_leaf valid.2 isFile regular member rest, ⟨scanned.booked, scanned.listed⟩, rfl⟩
  obtain ⟨entry, member, -⟩ := (scanned.directories _).mp rooted
  cases members with
  | nil => cases member
  | cons first rest => exact ⟨first, rest, rfl, scanned.tree.rootFirst first rfl⟩

theorem scanEntriesWith_accepted {σ : Type} {visit : σ → Text → UInt64 → Reader → Except CargoSourceClosureError (FileFact × σ)}
    {visitor after : σ} (scanned : scanEntriesWith visit entries root limits visitor = .ok (snapshot, after)) :
    ∃ members, Accepted (fun entry fact => fact.size.toNat = entry.declaredBytes) root limits entries members snapshot := by
  simp only [scanEntriesWith, bind_eq_ok, exists_unit, Prod.exists] at scanned
  obtain ⟨valid, state, last, ran, found, finished, same⟩ := scanned
  cases same
  have honest : ∀ (visitor : σ) relative (entry : Entry) declared (fact : FileFact) after, entry.isRegular →
      entry.header.size = some declared → visit visitor relative declared entry.reader = .ok (fact, after) → fact.size = declared →
        fact.size.toNat = entry.declaredBytes := by
    intro visitor relative entry declared fact after regular size _ sized
    simp [Entry.declaredBytes, regular, size, sized]
  obtain ⟨members, whole, booked⟩ := Scanned.run Prod.fst _ (fun _ _ _ _ scanned stepped => scanned.observeWith honest stepped) Scanned.new ran
  exact ⟨members, booked.accepted valid whole finished⟩

theorem scanCanonicalEntries_accepted {capture : Text → Bool} (scanned : scanCanonicalEntries entries root limits capture = .ok snapshot) :
    ∃ members, Accepted Measures root limits entries members snapshot := by
  simp only [scanCanonicalEntries, bind_eq_ok, exists_unit] at scanned
  obtain ⟨valid, state, ran, finished⟩ := scanned
  obtain ⟨members, whole, booked⟩ := Scanned.run id (fun state entry => state.observe capture limits entry)
    (fun _ _ _ _ scanned stepped => scanned.observe stepped) Scanned.new ran
  exact ⟨members, booked.accepted valid whole finished⟩

theorem Accepted.fits (accepted : Accepted holds root limits entries members snapshot)
    {fact : FileFact} (found : snapshot.files.find relative = some fact) : byteLen relative < 2 ^ 64 := by
  obtain ⟨entry, member, -, path, -⟩ := accepted.files.booked relative fact found
  have bounded := byteLen_of_portable (accepted.tree.portable entry member)
  have small := limits.maximumPathBytes.toNat_lt
  rw [path, byteLen_append, byteLen_cons] at bounded
  omega

theorem Accepted.same_files {alsoHolds : Entry → FileFact → Prop} {otherRoot : Text} {others : CargoSourceClosureLimits}
    {otherEntries : List (Option Entry)} {otherMembers : List Entry} {other : TreeSnapshot}
    (accepted : Accepted holds root limits entries members snapshot)
    (alsoAccepted : Accepted alsoHolds otherRoot others otherEntries otherMembers other)
    (same : treeIdBytes snapshot.files = treeIdBytes other.files) (path : Text) : snapshot.files.find path = other.files.find path :=
  find_of_treeIdBytes (fun _ _ found => accepted.fits found) (fun _ _ found => alsoAccepted.fits found) same path

/-- The same identity stands for the same contents at the same paths. -/
theorem Accepted.same_content {otherRoot : Text} {others : CargoSourceClosureLimits}
    {otherEntries : List (Option Entry)} {otherMembers : List Entry} {other : TreeSnapshot}
    (accepted : Accepted Measures root limits entries members snapshot)
    (alsoAccepted : Accepted Measures otherRoot others otherEntries otherMembers other)
    (same : treeIdBytes snapshot.files = treeIdBytes other.files) (member : entry ∈ members)
    (regular : entry.isRegular) (path : entry.path = root ++ '/' :: relative) :
    ∃ twin ∈ otherMembers, twin.isRegular ∧ twin.path = otherRoot ++ '/' :: relative ∧ ∃ content twinContent,
      entry.content = some content ∧ twin.content = some twinContent ∧ (Separated content twinContent → content = twinContent) := by
  obtain ⟨found, fact, spelled, known⟩ := accepted.files.listed entry member regular
  obtain rfl : relative = found := by simpa using path.symm.trans spelled
  obtain ⟨holder, isMember, -, sameText, content, read, digest, -⟩ := accepted.files.booked relative fact known
  have holds : holder = entry := by
    by_contra differs
    have symmetric : Std.Symm fun entry later : Entry => toAsciiLowercase entry.path ≠ toAsciiLowercase later.path :=
      ⟨fun _ _ apart same => apart same.symm⟩
    exact accepted.tree.distinct.forall isMember member differs (by rw [sameText, path])
  rw [accepted.same_files alsoAccepted same] at known
  obtain ⟨twin, twinMember, twinRegular, twinPath, twinContent, twinRead, twinDigest, -⟩ := alsoAccepted.files.booked relative fact known
  exact ⟨twin, twinMember, twinRegular, twinPath, content, twinContent, holds ▸ read, twinRead,
    fun separated => separated (digest.symm.trans twinDigest)⟩

/-- Every accepted archive is a well-formed tree of its root, and equal identities stand for the
same files with the same contents. -/
theorem accepted_archive_is_source_tree :
    (∀ (σ : Type) (visit : σ → Text → UInt64 → Reader → Except CargoSourceClosureError (FileFact × σ)) entries root limits visitor after
      snapshot, scanEntriesWith visit entries root limits visitor = .ok (snapshot, after) →
        ∃ members, Accepted (fun entry fact => fact.size.toNat = entry.declaredBytes) root limits entries members snapshot) ∧
    (∀ entries root limits capture snapshot, scanCanonicalEntries entries root limits capture = .ok snapshot →
      ∃ members, Accepted Measures root limits entries members snapshot) ∧
    (∀ holds root limits entries members snapshot alsoHolds otherRoot others otherEntries otherMembers other,
      Accepted holds root limits entries members snapshot → Accepted alsoHolds otherRoot others otherEntries otherMembers other →
        treeIdBytes snapshot.files = treeIdBytes other.files → ∀ path, snapshot.files.find path = other.files.find path) ∧
    (∀ root limits entries members snapshot otherRoot others otherEntries otherMembers other,
      Accepted Measures root limits entries members snapshot → Accepted Measures otherRoot others otherEntries otherMembers other →
        Separated (treeIdBytes snapshot.files) (treeIdBytes other.files) → snapshot.id = other.id →
          ∀ entry ∈ members, ∀ relative, entry.isRegular → entry.path = root ++ '/' :: relative →
            ∃ twin ∈ otherMembers, twin.isRegular ∧ twin.path = otherRoot ++ '/' :: relative ∧ ∃ content twinContent,
              entry.content = some content ∧ twin.content = some twinContent ∧ (Separated content twinContent → content = twinContent)) := by
  refine ⟨fun _ _ _ _ _ _ _ _ scanned => scanEntriesWith_accepted scanned, fun _ _ _ _ _ scanned => scanCanonicalEntries_accepted scanned,
    fun _ _ _ _ _ _ _ _ _ _ _ _ accepted alsoAccepted same path => accepted.same_files alsoAccepted same path, ?_⟩
  intro root limits entries members snapshot otherRoot others otherEntries otherMembers other accepted alsoAccepted separated same
    entry member relative regular path
  have identical := separated (accepted.identity.symm.trans (same.trans alsoAccepted.identity))
  exact accepted.same_content alsoAccepted identical member regular path

def smallLimits : CargoSourceClosureLimits := ⟨4, 64, 64, 256, 64⟩

def canonicalHeader (entryType : EntryType) (size : UInt64) (mode : UInt32) : Header :=
  ⟨true, entryType, some size, some mode, some [], some [], some 0, some 0, some sourceDateEpoch⟩

def smallArchive : List (Option Entry) :=
  [some ⟨encode "vendor".toList, canonicalHeader .directory 0 0o755, ⟨[], false⟩⟩,
    some ⟨encode "vendor/lib.rs".toList, canonicalHeader .regular 3 0o644, ⟨[encode "fn".toList, encode "x".toList], false⟩⟩]

theorem accepted_archive_is_source_tree_small :
    ∃ snapshot, scanCanonicalEntries smallArchive "vendor".toList smallLimits (fun _ => true) = .ok snapshot ∧
      ∃ members, Accepted Measures "vendor".toList smallLimits smallArchive members snapshot ∧
        ∀ entry ∈ members, ∀ relative, entry.isRegular → entry.path = "vendor".toList ++ '/' :: relative →
          ∃ content, entry.content = some content := by
  obtain ⟨-, canonical, -, contents⟩ := accepted_archive_is_source_tree
  cases scanned : scanCanonicalEntries smallArchive "vendor".toList smallLimits (fun _ => true) with
  | error fault =>
    have succeeds : (scanCanonicalEntries smallArchive "vendor".toList smallLimits (fun _ => true)).isOk = true := rfl
    rw [scanned] at succeeds
    cases succeeds
  | ok snapshot =>
    obtain ⟨members, accepted⟩ := canonical _ _ _ _ _ scanned
    refine ⟨snapshot, rfl, members, accepted, ?_⟩
    intro entry member relative regular path
    obtain ⟨_, _, _, _, content, _, read, _⟩ :=
      contents _ _ _ _ _ _ _ _ _ _ accepted accepted (fun _ => rfl) rfl entry member relative regular path
    exact ⟨content, read⟩

end Retonr.CargoSource
