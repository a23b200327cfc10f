/-
**`hosts.toml`: what `addOrUpdateHost` keeps.**

`addOrUpdateHost` of `internal/admin/manage.go` reads the file into a struct of its own, sets the entry of one host and
writes the whole file again; the endpoint reads it with `config.LoadHosts`, which has one more section.

* `Reading` — the two decoders of the file and the entries that stand in a text.
* `loadHosts`, `saveHosts`, `upsert`, `addOrUpdateHost`.
* `decode_saveHosts` — what is written comes back; `decode_saveHosts_eq_error` — or is refused for a character.
* `Kept` — the entries of other hosts are still there, and the host has its new paths.
* `addOrUpdateHost_kept_iff` — the exact condition on the file and on the entry.
-/

import Ttgo.Admin.CredsFile
import Ttgo.Lib.GoFile

namespace Ttgo.Admin.Hosts

open Ttgo.Lib Ttgo.Lib.Toml Ttgo.Admin.CredsFile Ttgo.Endpoint

/-! ### Reading -/

/-- `hostEntry`, and `TLSHost` of the endpoint. -/
structure HostEntry where
  hostname : Text
  certChainPath : Text
  privateKeyPath : Text
deriving DecidableEq, Repr

inductive Part
  | main
  | ping
  | speedtest
  | reverseProxy
deriving DecidableEq, Repr

def Part.key : Part → Text
  | main => "main_hosts".toList
  | ping => "ping_hosts".toList
  | speedtest => "speedtest_hosts".toList
  | reverseProxy => "reverse_proxy_hosts".toList

structure HostsFile where
  mainHosts : List HostEntry
  pingHosts : List HostEntry
  speedtestHosts : List HostEntry
deriving DecidableEq, Repr

/-- The entries of a section; the struct has no field for the last. -/
def HostsFile.part (hf : HostsFile) : Part → List HostEntry
  | .main => hf.mainHosts
  | .ping => hf.pingHosts
  | .speedtest => hf.speedtestHosts
  | .reverseProxy => []

structure HostsConfig where
  mainHosts : List HostEntry
  pingHosts : List HostEntry
  speedtestHosts : List HostEntry
  reverseProxyHosts : List HostEntry
deriving DecidableEq, Repr

def HostsConfig.part (hc : HostsConfig) : Part → List HostEntry
  | .main => hc.mainHosts
  | .ping => hc.pingHosts
  | .speedtest => hc.speedtestHosts
  | .reverseProxy => hc.reverseProxyHosts

def hostnameKey : Text := "hostname".toList

def certChainPathKey : Text := "cert_chain_path".toList

def privateKeyPathKey : Text := "private_key_path".toList

def hostIn (doc : Document) (element : Text × Nat) : Option HostEntry := do
  let hostname ← stringIn doc element hostnameKey
  let certChainPath ← stringIn doc element certChainPathKey
  let privateKeyPath ← stringIn doc element privateKeyPathKey
  return ⟨hostname, certChainPath, privateKeyPath⟩

def fileOf (doc : Document) : Option HostsFile := do
  let mainHosts ← elementsOf Part.main.key hostIn doc
  let pingHosts ← elementsOf Part.ping.key hostIn doc
  let speedtestHosts ← elementsOf Part.speedtest.key hostIn doc
  return ⟨mainHosts, pingHosts, speedtestHosts⟩

def configOf (doc : Document) : Option HostsConfig := do
  let mainHosts ← elementsOf Part.main.key hostIn doc
  let pingHosts ← elementsOf Part.ping.key hostIn doc
  let speedtestHosts ← elementsOf Part.speedtest.key hostIn doc
  let reverseProxyHosts ← elementsOf Part.reverseProxy.key hostIn doc
  return ⟨mainHosts, pingHosts, speedtestHosts, reverseProxyHosts⟩

/-! ### The file -/

/-- `writeHosts` of `saveHosts`. -/
def writeHosts (wide : Char → Bool) (table : Text) (entries : List HostEntry) : Text :=
  entries.flatMap fun e =>
    "[[".toList ++ table ++ "]]\n".toList ++
    "hostname = ".toList ++ quote wide e.hostname ++ "\n".toList ++
    "cert_chain_path = ".toList ++ quote wide e.certChainPath ++ "\n".toList ++
    "private_key_path = ".toList ++ quote wide e.privateKeyPath ++ "\n\n".toList

def saveHosts (wide : Char → Bool) (hf : HostsFile) : Text :=
  writeHosts wide Part.main.key hf.mainHosts ++ writeHosts wide Part.ping.key hf.pingHosts ++
    writeHosts wide Part.speedtest.key hf.speedtestHosts

/-- **The readers of the file**: `toml.DecodeFile` into the structs of the two programs, and the entries that stand in
a text. What is written is read as TOML says. The entries are those of a decoder that accepts the text; for one that
both refuse, they are anything. -/
structure Reading where
  decodeFile : Text → Except Text HostsFile
  decodeConfig : Text → Except Text HostsConfig
  entries : Text → Part → List HostEntry
  reads : ∀ {wide hf doc hc}, Toml.decode (saveHosts wide hf) = some doc → configOf doc = some hc →
    decodeConfig (saveHosts wide hf) = .ok hc
  refuses : ∀ {wide hf}, Toml.decode (saveHosts wide hf) = none → ∃ err, decodeConfig (saveHosts wide hf) = .error err
  entries_config : ∀ {text hc}, decodeConfig text = .ok hc → ∀ part, entries text part = hc.part part
  entries_file : ∀ {text hf}, decodeFile text = .ok hf → ∀ part ≠ .reverseProxy, entries text part = hf.part part

/-- The file, with the errors of reading and of writing it. -/
structure Disk where
  content : Option Text
  readErr : Option Text
  fault : Option (WriteFault Text)
deriving DecidableEq, Repr

def loadHosts (r : Reading) (d : Disk) : Except Text HostsFile :=
  match d.content with
  | none => .ok ⟨[], [], []⟩
  | some text =>
    match d.readErr with
    | none => r.decodeFile text
    | some err => .error err

/-- The first entry of the host is replaced; without one, the entry is appended. -/
def upsert (entry : HostEntry) : List HostEntry → List HostEntry
  | [] => [entry]
  | h :: hosts => if h.hostname = entry.hostname then entry :: hosts else h :: upsert entry hosts

/-- What the update starts with: nothing, when the file cannot be loaded. -/
def loaded (r : Reading) (d : Disk) : HostsFile :=
  match loadHosts r d with
  | .error _ => ⟨[], [], []⟩
  | .ok hf => hf

def updated (hf : HostsFile) (entry : HostEntry) : HostsFile :=
  { hf with mainHosts := upsert entry hf.mainHosts, pingHosts := upsert entry hf.pingHosts }

/-- `addOrUpdateHost`: the content of the file after it. The error of `saveHosts` is not looked at. -/
def addOrUpdateHost (r : Reading) (wide : Char → Bool) (d : Disk) (hostname certPath keyPath : Text) : Option Text :=
  (writeFile d.content (saveHosts wide (updated (loaded r d) ⟨hostname, certPath, keyPath⟩)) d.fault).1

/-! ### The first entry of a host -/

section Upsert

variable {entry e : HostEntry} {hosts : List HostEntry}

def behindFirst (hostname : Text) (hosts : List HostEntry) : List HostEntry :=
  (hosts.dropWhile (·.hostname ≠ hostname)).tail

theorem upsert_eq (entry : HostEntry) (hosts : List HostEntry) :
    upsert entry hosts =
      hosts.takeWhile (·.hostname ≠ entry.hostname) ++ entry :: behindFirst entry.hostname hosts := by
  induction hosts with
  | nil => rfl
  | cons h hosts ih =>
    by_cases same : h.hostname = entry.hostname
    · simp [upsert, behindFirst, same]
    · simp [upsert, behindFirst, same, ih]

theorem mem_upsert_of_ne (other : e.hostname ≠ entry.hostname) : e ∈ upsert entry hosts ↔ e ∈ hosts := by
  induction hosts with
  | nil =>
    have differs : e ≠ entry := fun same => other (congrArg HostEntry.hostname same)
    simp [upsert, differs]
  | cons h hosts ih =>
    rw [upsert]
    split
    · next same =>
      have left : e ≠ entry := fun equal => other (congrArg HostEntry.hostname equal)
      have right : e ≠ h := fun equal => other ((congrArg HostEntry.hostname equal).trans same)
      simp [left, right]
    · simp [ih]

theorem mem_upsert_self : entry ∈ upsert entry hosts := by
  rw [upsert_eq]
  exact List.mem_append_right _ List.mem_cons_self

theorem mem_upsert_cases (inside : e ∈ upsert entry hosts) :
    e = entry ∨ (e ∈ hosts ∧ e.hostname ≠ entry.hostname) ∨ e ∈ behindFirst entry.hostname hosts := by
  rw [upsert_eq, List.mem_append, List.mem_cons] at inside
  rcases inside with front | rfl | back
  · have other := List.all_eq_true.mp (List.all_takeWhile (l := hosts)) e front
    exact .inr (.inl ⟨(List.takeWhile_sublist _).subset front, of_decide_eq_true other⟩)
  · exact .inl rfl
  · exact .inr (.inr back)

end Upsert

/-- The host of the entry is there, with the paths of the entry only. -/
structure HasPaths (entry : HostEntry) (hosts : List HostEntry) : Prop where
  listed : entry ∈ hosts
  only : ∀ e ∈ hosts, e.hostname = entry.hostname → e = entry

theorem hasPaths_upsert_iff {entry : HostEntry} {hosts : List HostEntry} :
    HasPaths entry (upsert entry hosts) ↔
      ∀ e ∈ behindFirst entry.hostname hosts, e.hostname = entry.hostname → e = entry := by
  constructor
  · intro has e behind
    refine has.only e ?_
    rw [upsert_eq]
    exact List.mem_append_right _ (List.mem_cons_of_mem _ behind)
  · intro behind
    refine ⟨mem_upsert_self, fun e inside same => ?_⟩
    rcases mem_upsert_cases inside with rfl | ⟨-, other⟩ | later
    · rfl
    · exact absurd same other
    · exact behind e later same

/-! ### What is written -/

/-- The characters of an entry are written with escapes that TOML has. -/
def HostEntry.readable (e : HostEntry) : Bool :=
  (e.hostname ++ e.certChainPath ++ e.privateKeyPath).all isReadable

theorem HostEntry.readable_iff {e : HostEntry} : e.readable = true ↔
    e.hostname.all isReadable = true ∧ e.certChainPath.all isReadable = true ∧
      e.privateKeyPath.all isReadable = true := by
  simp only [readable, List.all_append, Bool.and_eq_true, and_assoc]

def hostFields (e : HostEntry) : List (Text × Value) :=
  [(hostnameKey, .string e.hostname), (certChainPathKey, .string e.certChainPath),
    (privateKeyPathKey, .string e.privateKeyPath)]

/-- The lines of an entry, with the statements that they are. -/
def hostStatements (wide : Char → Bool) (part : Part) (e : HostEntry) : List (Text × List Statement) :=
  [("[[".toList ++ part.key ++ "]]".toList, [.arrayTable [part.key]]), quotedLine wide hostnameKey e.hostname,
    quotedLine wide certChainPathKey e.certChainPath, quotedLine wide privateKeyPathKey e.privateKeyPath, ([], [])]

/-- The entries in the order in which they are written. -/
def listed (hf : HostsFile) : List (Part × HostEntry) :=
  hf.mainHosts.map (Part.main, ·) ++ hf.pingHosts.map (Part.ping, ·) ++ hf.speedtestHosts.map (Part.speedtest, ·)

def fileStatements (wide : Char → Bool) (hf : HostsFile) : List (Text × List Statement) :=
  (listed hf).flatMap fun row => hostStatements wide row.1 row.2

def sectionsOf (hf : HostsFile) : Sections := (listed hf).map fun row => (row.1.key, hostFields row.2)

section Written

variable {wide : Char → Bool} {hf : HostsFile} {part : Part} {e : HostEntry}

theorem mem_listed : (part, e) ∈ listed hf ↔ e ∈ hf.part part := by
  cases part <;> simp [listed, HostsFile.part]

theorem writeHosts_eq (wide : Char → Bool) (part : Part) (hosts : List HostEntry) :
    writeHosts wide part.key hosts =
      (((hosts.map (part, ·)).flatMap fun row => hostStatements wide row.1 row.2).map Prod.fst).flatMap
        (· ++ ['\n']) := by
  have header : "]]\n".toList = "]]".toList ++ ['\n'] := rfl
  have line : "\n".toList = ['\n'] := rfl
  have blank : "\n\n".toList = ['\n'] ++ ([] ++ ['\n']) := rfl
  have hostname : "hostname = ".toList = hostnameKey ++ " = ".toList := rfl
  have certChainPath : "cert_chain_path = ".toList = certChainPathKey ++ " = ".toList := rfl
  have privateKeyPath : "private_key_path = ".toList = privateKeyPathKey ++ " = ".toList := rfl
  rw [List.map_flatMap, List.flatMap_assoc, List.flatMap_map, writeHosts]
  refine congrArg (hosts.flatMap ·) (funext fun e => ?_)
  rw [header, line, blank, hostname, certChainPath, privateKeyPath, hostStatements]
  simp only [quotedLine, List.map_cons, List.map_nil, List.flatMap_cons, List.flatMap_nil, List.append_assoc,
    List.append_nil, List.nil_append]

theorem saveHosts_eq (wide : Char → Bool) (hf : HostsFile) :
    saveHosts wide hf = ((fileStatements wide hf).map Prod.fst).flatMap (· ++ ['\n']) := by
  rw [saveHosts, writeHosts_eq, writeHosts_eq, writeHosts_eq, fileStatements, listed]
  simp only [List.flatMap_append, List.map_append]

theorem fileStatements_eq (wide : Char → Bool) (hf : HostsFile) :
    fileStatements wide hf = (sectionsOf hf).flatMap (elementLines wide) := by
  rw [fileStatements, sectionsOf, List.flatMap_map]
  rfl

theorem spelled_sectionsOf : ∀ table ∈ sectionsOf hf, Spelled table := by
  have keys : ∀ key ∈ [hostnameKey, certChainPathKey, privateKeyPathKey], key ≠ [] ∧ key.all isBare = true := by
    decide
  intro table member
  obtain ⟨⟨part, e⟩, -, rfl⟩ := List.mem_map.mp member
  have fields : ∀ field ∈ hostFields e, SpelledField field := by
    intro field member
    simp only [hostFields, List.mem_cons, List.not_mem_nil, or_false] at member
    rcases member with rfl | rfl | rfl
    · exact .text (keys _ (by simp)) _
    · exact .text (keys _ (by simp)) _
    · exact .text (keys _ (by simp)) _
  have distinct : [hostnameKey, certChainPathKey, privateKeyPathKey].Nodup := by decide +kernel
  have named : part.key ≠ [] ∧ part.key.all isBare = true := by
    cases part <;> decide
  exact ⟨named.1, named.2, fields, distinct⟩

theorem readable_hostFields :
    (∀ field ∈ hostFields e, field.2.readable = true) ↔ e.readable = true := by
  simp [HostEntry.readable_iff, hostFields, Value.readable]

/-! ### What comes back -/

theorem equalFold_hostKeys :
    (equalFold hostnameKey hostnameKey ∧ equalFold certChainPathKey certChainPathKey ∧
      equalFold privateKeyPathKey privateKeyPathKey) ∧
    (¬ equalFold certChainPathKey hostnameKey ∧ ¬ equalFold privateKeyPathKey hostnameKey) ∧
    (¬ equalFold hostnameKey certChainPathKey ∧ ¬ equalFold privateKeyPathKey certChainPathKey) ∧
    ¬ equalFold hostnameKey privateKeyPathKey ∧ ¬ equalFold certChainPathKey privateKeyPathKey := by
  decide

theorem valuesOf_hostFields (e : HostEntry) :
    valuesOf hostnameKey (hostFields e) = [.string e.hostname] ∧
    valuesOf certChainPathKey (hostFields e) = [.string e.certChainPath] ∧
    valuesOf privateKeyPathKey (hostFields e) = [.string e.privateKeyPath] := by
  simp [hostFields, valuesOf, equalFold_hostKeys]

theorem hostIn_eq_some {doc : Document} {element : Text × Nat}
    (values : ∀ key, fieldValues doc element key = some (valuesOf key (hostFields e))) :
    hostIn doc element = some e := by
  obtain ⟨one, two, three⟩ := valuesOf_hostFields e
  have hostname : stringIn doc element hostnameKey = some e.hostname := by rw [stringIn, values, one]
  have certChainPath : stringIn doc element certChainPathKey = some e.certChainPath := by rw [stringIn, values, two]
  have privateKeyPath : stringIn doc element privateKeyPathKey = some e.privateKeyPath := by
    rw [stringIn, values, three]
  rw [hostIn, hostname, certChainPath, privateKeyPath]
  rfl

theorem equalFold_part {part other : Part} : equalFold other.key part.key = true ↔ other = part := by
  cases part <;> cases other <;> decide

theorem key_inj {part other : Part} : other.key = part.key ↔ other = part := by
  cases part <;> cases other <;> decide

theorem elementsNamed_sectionsOf (hf : HostsFile) (part : Part) :
    elementsNamed part.key (sectionsOf hf) = (hf.part part).map hostFields := by
  cases part <;>
    simp [elementsNamed, sectionsOf, listed, HostsFile.part, List.filterMap_map, Function.comp_def, key_inj]

theorem decode_saveHosts (r : Reading) (reads : ∀ part, ∀ e ∈ hf.part part, e.readable = true) :
    r.decodeConfig (saveHosts wide hf) = .ok ⟨hf.mainHosts, hf.pingHosts, hf.speedtestHosts, []⟩ := by
  have readable : ∀ table ∈ sectionsOf hf, ∀ field ∈ table.2, field.2.readable = true := by
    intro table member
    obtain ⟨⟨part, e⟩, row, rfl⟩ := List.mem_map.mp member
    exact readable_hostFields.mpr (reads part e (mem_listed.mp row))
  obtain ⟨kinds, decoded, holds⟩ := decode_elements spelled_sectionsOf readable
  rw [← fileStatements_eq, ← saveHosts_eq] at decoded
  refine r.reads decoded ?_
  have back (part : Part) :
      elementsOf part.key hostIn ⟨kinds, sectionFields (fun _ => 0) (sectionsOf hf)⟩ = some (hf.part part) := by
    have only : ∀ table ∈ sectionsOf hf, equalFold table.1 part.key = true → table.1 = part.key := by
      intro table member folds
      obtain ⟨row, -, rfl⟩ := List.mem_map.mp member
      rw [equalFold_part.mp folds]
    have many : (elementsNamed part.key (sectionsOf hf)).length = (hf.part part).length := by
      rw [elementsNamed_sectionsOf, List.length_map]
    have each : ∀ index e, (hf.part part)[index]? = some e →
        hostIn ⟨kinds, sectionFields (fun _ => 0) (sectionsOf hf)⟩ (part.key, index + 1) = some (id e) := by
      intro index e entry
      refine hostIn_eq_some fun key => fieldValues_sections holds ?_ key
      rw [elementsNamed_sectionsOf, List.getElem?_map, entry]
      rfl
    have read := elementsOf_sections holds (equalFold_part.mpr rfl) only many each
    rwa [List.map_id] at read
  rw [configOf, back, back, back, back]
  rfl

theorem decode_saveHosts_eq_error (r : Reading) (wide : Char → Bool) (listed : e ∈ hf.part part)
    (unreadable : e.readable = false) : ∃ err, r.decodeConfig (saveHosts wide hf) = .error err := by
  apply r.refuses
  rw [saveHosts_eq, fileStatements_eq]
  refine decode_elements_eq_none spelled_sectionsOf ⟨_, List.mem_map_of_mem (mem_listed.mpr listed), ?_⟩
  by_contra none
  have all : ∀ field ∈ hostFields e, field.2.readable = true := by
    intro field member
    by_contra marked
    exact none ⟨field, member, Bool.eq_false_iff.mpr marked⟩
  rw [readable_hostFields.mp all] at unreadable
  cases unreadable

end Written

/-! ### What is kept -/

section Kept

variable {r : Reading} {wide : Char → Bool} {d : Disk} {entry : HostEntry}

/-- The entries that stand in a file. -/
def standing (r : Reading) (content : Option Text) (part : Part) : List HostEntry :=
  match content with
  | none => []
  | some text => r.entries text part

def held (r : Reading) (d : Disk) (part : Part) : List HostEntry := standing r d.content part

/-- **The file after the call keeps what stood in it**: `LoadHosts` reads every entry of another host in its section,
and the named host with its new paths. -/
def Kept (r : Reading) (d : Disk) (entry : HostEntry) (after : Option Text) : Prop :=
  ∃ text hc, after = some text ∧ r.decodeConfig text = .ok hc ∧
    (∀ part, ∀ e ∈ held r d part, e.hostname ≠ entry.hostname → e ∈ hc.part part) ∧
    HasPaths entry hc.mainHosts ∧ HasPaths entry hc.pingHosts

/-- The file can be written again without a loss. -/
structure Rewritable (r : Reading) (d : Disk) (entry : HostEntry) : Prop where
  /-- A file that cannot be read or does not parse holds no other host. -/
  loads : (loadHosts r d).isOk = false → ∀ part, ∀ e ∈ held r d part, e.hostname = entry.hostname
  /-- No other host has an entry in the section that is not written. -/
  reverseProxy : ∀ e ∈ held r d .reverseProxy, e.hostname = entry.hostname
  named : entry.readable = true
  others : ∀ part, ∀ e ∈ (loaded r d).part part, part = .speedtest ∨ e.hostname ≠ entry.hostname → e.readable = true
  /-- Behind the first entry of the host, the others have the new paths already. -/
  once : ∀ part ∈ [Part.main, Part.ping], ∀ e ∈ behindFirst entry.hostname ((loaded r d).part part),
    e.hostname = entry.hostname → e = entry

/-- `LoadHosts` reads the file, and the host has the new paths in it. -/
def AlreadySet (r : Reading) (content : Option Text) (entry : HostEntry) : Prop :=
  ∃ text hc, content = some text ∧ r.decodeConfig text = .ok hc ∧
    HasPaths entry hc.mainHosts ∧ HasPaths entry hc.pingHosts

theorem others_loaded_iff :
    (∀ part, ∀ e ∈ held r d part, e.hostname ≠ entry.hostname → e ∈ (loaded r d).part part) ↔
      ((loadHosts r d).isOk = false → ∀ part, ∀ e ∈ held r d part, e.hostname = entry.hostname) ∧
      ∀ e ∈ held r d .reverseProxy, e.hostname = entry.hostname := by
  constructor
  · intro seen
    refine ⟨fun failed part e standing => ?_, fun e standing => ?_⟩
    · by_contra other
      have inside := seen part e standing other
      have empty : loaded r d = ⟨[], [], []⟩ := by
        unfold loaded
        cases load : loadHosts r d with
        | error err => rfl
        | ok hf => simp [load, Except.isOk, Except.toBool] at failed
      rw [empty] at inside
      cases part <;> cases inside
    · by_contra other
      cases seen .reverseProxy e standing other
  · rintro ⟨loads, reverseProxy⟩ part e standing other
    cases load : loadHosts r d with
    | error err => exact absurd (loads (by rw [load]; rfl) part e standing) other
    | ok hf =>
      have start : loaded r d = hf := by rw [loaded, load]
      have differs : part ≠ .reverseProxy := by
        rintro rfl
        exact other (reverseProxy e standing)
      rw [start]
      unfold held Hosts.standing at standing
      unfold loadHosts at load
      cases content : d.content with
      | none => simp [content] at standing
      | some text =>
        simp only [content] at standing load
        cases failed : d.readErr with
        | some err => simp [failed] at load
        | none =>
          simp only [failed] at load
          rwa [r.entries_file load part differs] at standing

theorem mem_updated_iff {hf : HostsFile} {part : Part} {e : HostEntry} (other : e.hostname ≠ entry.hostname) :
    e ∈ (updated hf entry).part part ↔ e ∈ hf.part part := by
  cases part with
  | main => exact mem_upsert_of_ne other
  | ping => exact mem_upsert_of_ne other
  | speedtest => exact Iff.rfl
  | reverseProxy => exact Iff.rfl

theorem readable_updated {hf : HostsFile} (named : entry.readable = true)
    (others : ∀ part, ∀ e ∈ hf.part part, part = .speedtest ∨ e.hostname ≠ entry.hostname → e.readable = true)
    (once : ∀ part ∈ [Part.main, Part.ping], ∀ e ∈ behindFirst entry.hostname (hf.part part),
      e.hostname = entry.hostname → e = entry) :
    ∀ part, ∀ e ∈ (updated hf entry).part part, e.readable = true := by
  have set : ∀ part ∈ [Part.main, Part.ping], ∀ e ∈ upsert entry (hf.part part), e.readable = true := by
    intro part among e inside
    rcases mem_upsert_cases inside with rfl | ⟨inside, other⟩ | behind
    · exact named
    · exact others part e inside (.inr other)
    · by_cases same : e.hostname = entry.hostname
      · rw [once part among e behind same]
        exact named
      · exact others part e ((mem_upsert_of_ne same).mp inside) (.inr same)
  intro part e inside
  cases part with
  | main => exact set .main (by decide) e inside
  | ping => exact set .ping (by decide) e inside
  | speedtest => exact others .speedtest e inside (.inl rfl)
  | reverseProxy => cases inside

theorem kept_saveHosts_iff :
    Kept r d entry (some (saveHosts wide (updated (loaded r d) entry))) ↔ Rewritable r d entry := by
  let hf := updated (loaded r d) entry
  constructor
  · rintro ⟨text, hc, written, decoded, kept, main, ping⟩
    obtain rfl := Option.some.inj written
    have reads : ∀ part, ∀ e ∈ hf.part part, e.readable = true := by
      intro part e inside
      by_contra unreadable
      obtain ⟨err, refused⟩ := decode_saveHosts_eq_error r wide inside (Bool.eq_false_iff.mpr unreadable)
      cases refused.symm.trans decoded
    obtain rfl := Except.ok.inj ((decode_saveHosts r reads).symm.trans decoded)
    have seen : ∀ part, ∀ e ∈ held r d part, e.hostname ≠ entry.hostname → e ∈ (loaded r d).part part := by
      intro part e standing other
      have inside : e ∈ hf.part part := by
        have found := kept part e standing other
        cases part <;> exact found
      exact (mem_updated_iff other).mp inside
    obtain ⟨loads, reverseProxy⟩ := others_loaded_iff.mp seen
    refine ⟨loads, reverseProxy, reads .main entry mem_upsert_self, fun part e inside which => ?_, ?_⟩
    · rcases which with rfl | other
      · exact reads .speedtest e inside
      · exact reads part e ((mem_updated_iff other).mpr inside)
    · intro part among
      simp only [List.mem_cons, List.not_mem_nil, or_false] at among
      rcases among with rfl | rfl
      · exact hasPaths_upsert_iff.mp main
      · exact hasPaths_upsert_iff.mp ping
  · rintro ⟨loads, reverseProxy, named, others, once⟩
    refine ⟨_, _, rfl, decode_saveHosts r (readable_updated named others once), ?_, ?_, ?_⟩
    · intro part e standing other
      have inside := (mem_updated_iff other).mpr (others_loaded_iff.mpr ⟨loads, reverseProxy⟩ part e standing other)
      cases part <;> exact inside
    · exact hasPaths_upsert_iff.mpr (once .main (by decide))
    · exact hasPaths_upsert_iff.mpr (once .ping (by decide))

theorem kept_iff_alreadySet {after : Option Text} : Kept r d entry after ↔ AlreadySet r after entry ∧
    ∀ part, ∀ e ∈ held r d part, e.hostname ≠ entry.hostname → e ∈ standing r after part := by
  constructor
  · rintro ⟨text, hc, rfl, decoded, others, main, ping⟩
    refine ⟨⟨text, hc, rfl, decoded, main, ping⟩, fun part e before other => ?_⟩
    rw [standing, r.entries_config decoded part]
    exact others part e before other
  · rintro ⟨⟨text, hc, rfl, decoded, main, ping⟩, others⟩
    refine ⟨text, hc, rfl, decoded, fun part e before other => ?_, main, ping⟩
    rw [← r.entries_config decoded part]
    exact others part e before other

end Kept

/-- What the write has to leave: if it succeeds, the file could be written again without a loss; if it does not open
the file, that has the entry already; if it is cut off, the part has the entry and all that stood in the file. -/
def Leaves (r : Reading) (d : Disk) (entry : HostEntry) : Option (WriteFault Text) → Prop
  | none => Rewritable r d entry
  | some (.refused _) => AlreadySet r d.content entry
  | some (.cut _ left) => AlreadySet r (some left) entry ∧
      ∀ part, ∀ e ∈ held r d part, e.hostname ≠ entry.hostname → e ∈ r.entries left part

/-- **`addOrUpdateHost` touches only its host** exactly when the file can be written again without a loss, or the write
fails and what it leaves has the entry and the other hosts. -/
theorem addOrUpdateHost_kept_iff (r : Reading) (wide : Char → Bool) (d : Disk) (entry : HostEntry) :
    Kept r d entry (addOrUpdateHost r wide d entry.hostname entry.certChainPath entry.privateKeyPath) ↔
      Leaves r d entry d.fault := by
  unfold addOrUpdateHost
  cases d.fault with
  | none => exact kept_saveHosts_iff
  | some fault =>
    cases fault with
    | refused err => exact kept_iff_alreadySet.trans (and_iff_left fun part e before _ => before)
    | cut err left => exact kept_iff_alreadySet

/-! ### A section that is lost -/

theorem fileOf_of_configOf {doc : Document} {hc : HostsConfig} (read : configOf doc = some hc) :
    fileOf doc = some ⟨hc.mainHosts, hc.pingHosts, hc.speedtestHosts⟩ := by
  obtain ⟨mainHosts, main, read⟩ := Option.bind_eq_some_iff.mp read
  obtain ⟨pingHosts, ping, read⟩ := Option.bind_eq_some_iff.mp read
  obtain ⟨speedtestHosts, speedtest, read⟩ := Option.bind_eq_some_iff.mp read
  obtain ⟨reverseProxyHosts, -, read⟩ := Option.bind_eq_some_iff.mp read
  obtain rfl := Option.some.inj read
  rw [fileOf, main, ping, speedtest]
  rfl

theorem elim_eq_ok {α : Type} {read : Option α} {err : Text} {a : α}
    (accepted : read.elim (.error err) .ok = (.ok a : Except Text α)) : read = some a := by
  cases read with
  | none => cases accepted
  | some b => rw [Except.ok.inj accepted]

/-- The decoders that read arrays of tables only. -/
def plainReading : Reading where
  decodeFile text := ((Toml.decode text).bind fileOf).elim (.error "toml: unexpected".toList) .ok
  decodeConfig text := ((Toml.decode text).bind configOf).elim (.error "toml: unexpected".toList) .ok
  entries text part :=
    match (Toml.decode text).bind configOf, (Toml.decode text).bind fileOf with
    | some hc, _ => hc.part part
    | none, some hf => hf.part part
    | none, none => []
  reads := by
    intro wide hf doc hc decoded read
    rw [decoded, Option.bind_some, read]
    rfl
  refuses := by
    intro wide hf refused
    exact ⟨_, by rw [refused]; rfl⟩
  entries_config := by
    intro text hc read part
    rw [elim_eq_ok read]
  entries_file := by
    intro text hf read part other
    have file := elim_eq_ok read
    cases config : (Toml.decode text).bind configOf with
    | none => rw [file]
    | some hc =>
      obtain ⟨doc, decoded, same⟩ := Option.bind_eq_some_iff.mp config
      rw [decoded, Option.bind_some, fileOf_of_configOf same] at file
      obtain rfl := Option.some.inj file
      cases part with
      | reverseProxy => exact absurd rfl other
      | _ => rfl

/-- A certificate for `a` takes the reverse proxy `b` out of the file. -/
theorem reverse_proxy_lost :
    let d : Disk := ⟨some ("[[reverse_proxy_hosts]]\nhostname = \"b\"\ncert_chain_path = \"b.crt\"\n".toList ++
      "private_key_path = \"b.key\"\n".toList), none, none⟩
    held plainReading d .reverseProxy = [⟨"b".toList, "b.crt".toList, "b.key".toList⟩] ∧
      ¬ Kept plainReading d ⟨"a".toList, "a.crt".toList, "a.key".toList⟩
        (addOrUpdateHost plainReading (fun _ => true) d "a".toList "a.crt".toList "a.key".toList) := by
  intro d
  have standing : held plainReading d .reverseProxy = [⟨"b".toList, "b.crt".toList, "b.key".toList⟩] := by
    decide +kernel
  refine ⟨standing, fun kept => ?_⟩
  have only := (kept_saveHosts_iff.mp kept).reverseProxy _ (standing ▸ List.mem_cons_self)
  exact absurd only (by decide)

end Ttgo.Admin.Hosts
