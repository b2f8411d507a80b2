import Commeatus.Dns.Hosts
import Commeatus.Lib.Fallible

/-!
Hosts tables of joined sources.

A source is a list of names with addresses, and its table is what comes of
adding them one by one. So the table of two sources joined by a line feed is
the table of the first with the second's merged into it, in whatever order the
merge goes through the second's names.
-/

namespace Commeatus.Dns

open Commeatus.Lib Commeatus.Core

/-- Lists that were put together without repetition may be put together in two steps. -/
theorem foldl_pushNew_foldl (s t l : List IpAddr) :
    (l.foldl pushNew t).foldl pushNew s = l.foldl pushNew (t.foldl pushNew s) := by
  induction l generalizing t with
  | nil => rfl
  | cons x l ih =>
      have pushed : (pushNew t x).foldl pushNew s = pushNew (t.foldl pushNew s) x := by
        by_cases known : x ∈ t
        · have later : x ∈ t.foldl pushNew s := mem_foldl_pushNew.mpr (.inr known)
          rw [pushNew, if_pos (by simpa using known), pushNew, if_pos (by simpa using later)]
        · rw [pushNew, if_neg (by simpa using known), List.foldl_append]
          rfl
      rw [List.foldl_cons, ih, pushed, List.foldl_cons]

namespace HostsTable

/-- Names with addresses, added one by one. -/
def addPairs (table : HostsTable) (pairs : List (Str × IpAddr)) : HostsTable :=
  pairs.foldl (fun table pair => table.add pair.1 pair.2) table

/-- The addresses that come with the name. -/
def values (name : Str) (pairs : List (Str × IpAddr)) : List IpAddr :=
  (pairs.filter fun pair => pair.1 = name).map Prod.snd

variable {table table' other : HostsTable} {name : Str} {pairs : List (Str × IpAddr)}

theorem addPairs_append (table : HostsTable) (pairs pairs' : List (Str × IpAddr)) :
    table.addPairs (pairs ++ pairs') = (table.addPairs pairs).addPairs pairs' := List.foldl_append

@[simp] theorem values_nil : values name [] = [] := rfl

theorem values_cons (pair : Str × IpAddr) (pairs : List (Str × IpAddr)) :
    values name (pair :: pairs) = if pair.1 = name then pair.2 :: values name pairs
      else values name pairs := by
  unfold values
  by_cases same : pair.1 = name
  · simp [same]
  · simp [same]

theorem values_append (pairs pairs' : List (Str × IpAddr)) :
    values name (pairs ++ pairs') = values name pairs ++ values name pairs' := by
  simp [values]

theorem lookup_add (table : HostsTable) (name key : Str) (address : IpAddr) :
    (table.add key address).records.lookup name =
    if name = key then some (pushNew ((table.records.lookup key).getD []) address)
      else table.records.lookup name :=
  Map.lookup_insert _ _ _ _

/-- A name's addresses after the pairs: those it had, and those that come with it. -/
theorem lookup_addPairs (table : HostsTable) (name : Str) (pairs : List (Str × IpAddr)) :
    (table.addPairs pairs).records.lookup name =
      if values name pairs = [] then table.records.lookup name
      else some ((values name pairs).foldl pushNew ((table.records.lookup name).getD [])) := by
  induction pairs generalizing table with
  | nil => rfl
  | cons pair pairs ih =>
      rw [addPairs, List.foldl_cons]
      change ((table.add pair.1 pair.2).addPairs pairs).records.lookup name = _
      rw [ih, lookup_add, values_cons]
      by_cases same : pair.1 = name
      · rw [if_pos same.symm, if_pos same, if_neg (List.cons_ne_nil _ _), List.foldl_cons,
          Option.getD_some, same]
        split
        · rename_i none
          rw [none]
          rfl
        · rfl
      · rw [if_neg (Ne.symm same), if_neg same]

/-! ### Merging in any order -/

/-- `merge`, going through the other table's names in the given order. -/
def mergeOrder (table : HostsTable) (order : List (Str × List IpAddr)) : HostsTable :=
  order.foldl (fun table entry =>
    entry.2.foldl (fun table address => table.add entry.1 address) table) table

theorem merge_eq_mergeOrder (table other : HostsTable) :
    table.merge other = table.mergeOrder
      (other.records.entries.map fun entry => (entry.1, entry.2)) := by
  rw [merge, mergeOrder, List.foldl_map]

/-- The pairs that a merge adds. -/
def spreadOut (order : List (Str × List IpAddr)) : List (Str × IpAddr) :=
  order.flatMap fun entry => entry.2.map (entry.1, ·)

theorem mergeOrder_eq_addPairs (table : HostsTable) (order : List (Str × List IpAddr)) :
    table.mergeOrder order = table.addPairs (spreadOut order) := by
  induction order generalizing table with
  | nil => rfl
  | cons entry order ih =>
      rw [mergeOrder, List.foldl_cons]
      change mergeOrder _ order = _
      have split : spreadOut (entry :: order) = entry.2.map (entry.1, ·) ++ spreadOut order := rfl
      rw [ih, split, addPairs, addPairs, List.foldl_append, List.foldl_map]

theorem values_spread {name key : Str} (addresses : List IpAddr) :
    values name (addresses.map (key, ·)) = if key = name then addresses else [] := by
  induction addresses with
  | nil => simp
  | cons address addresses ih =>
      rw [List.map_cons, values_cons, ih]
      split <;> rfl

/-- Where every name comes once, the pairs of a name are its addresses. -/
theorem values_spreadOut {order : List (Str × List IpAddr)}
    (distinct : (order.map Prod.fst).Nodup) :
    (∀ addresses, (name, addresses) ∈ order → values name (spreadOut order) = addresses) ∧
      (name ∉ order.map Prod.fst → values name (spreadOut order) = []) := by
  induction order with
  | nil => exact ⟨fun _ no => absurd no List.not_mem_nil, fun _ => rfl⟩
  | cons entry order ih =>
      rw [List.map_cons, List.nodup_cons] at distinct
      obtain ⟨fresh, distinct⟩ := distinct
      obtain ⟨listed, absent⟩ := ih distinct
      have split : values name (spreadOut (entry :: order)) =
          (if entry.1 = name then entry.2 else []) ++ values name (spreadOut order) := by
        rw [spreadOut, List.flatMap_cons, values_append, values_spread]
        rfl
      rw [split]
      refine ⟨fun addresses member => ?_, fun outside => ?_⟩
      · rcases List.mem_cons.mp member with rfl | later
        · rw [if_pos rfl, absent fresh, List.append_nil]
        · have differs : entry.1 ≠ name := by
            rintro rfl
            exact fresh (List.mem_map.mpr ⟨_, later, rfl⟩)
          rw [if_neg differs, List.nil_append, listed addresses later]
      · rw [List.map_cons, List.mem_cons, not_or] at outside
        rw [if_neg (Ne.symm outside.1), List.nil_append, absent outside.2]

/-- The pairs of a name in a merge are its addresses in the other table, whatever the order. -/
theorem values_merge {order : List (Str × List IpAddr)}
    (perm : order.Perm (other.records.entries.map fun entry => (entry.1, entry.2)))
    (name : Str) : values name (spreadOut order) = (other.records.lookup name).getD [] := by
  have keys : (order.map Prod.fst).Nodup := by
    refine (perm.map Prod.fst).nodup_iff.mpr ?_
    rw [List.map_map]
    exact other.records.nodupKeys
  obtain ⟨listed, absent⟩ := @values_spreadOut name order keys
  have member : ∀ addresses, (name, addresses) ∈ order ↔
      other.records.lookup name = some addresses := by
    intro addresses
    rw [perm.mem_iff, List.mem_map, ← Map.mem_entries_iff]
    constructor
    · rintro ⟨⟨key, held⟩, there, same⟩
      cases same
      exact there
    · intro there
      exact ⟨_, there, rfl⟩
  cases found : other.records.lookup name with
  | some addresses => exact listed addresses ((member addresses).mpr found)
  | none =>
      refine absent fun inside => ?_
      obtain ⟨⟨key, addresses⟩, there, rfl⟩ := List.mem_map.mp inside
      rw [(member addresses).mp there] at found
      cases found

/-! ### What a source lists -/

/-- The fields of a line, without its comment. -/
def fieldsOf (raw : Str) : List Str := splitWhitespace (trim (raw.takeWhile (· != '#')))

/-- How many entries a text has. -/
def entryCount (text : Str) : Nat := ((lines text).map fun raw => (fieldsOf raw).length - 1).sum

/-- The names of a line, with its address. -/
def namedWith (address : IpAddr) : List Str → Option (List (Str × IpAddr))
  | [] => some []
  | name :: names =>
      (normalizeName name).toOption.bind fun name =>
        (namedWith address names).map ((name, address) :: ·)

/-- What a line lists, if it is a hosts line or has nothing to say. -/
def linePairs (raw : Str) : Option (List (Str × IpAddr)) :=
  match fieldsOf raw with
  | [] => some []
  | _ :: [] => none
  | first :: names => (IpAddr.parse first).bind fun address => namedWith address names

/-- What the lines list together. -/
def gathered : List Str → Option (List (Str × IpAddr)) :=
  List.foldr (fun raw rest => (linePairs raw).bind fun pairs => rest.map (pairs ++ ·)) (some [])

theorem gathered_cons (raw : Str) (raws : List Str) :
    gathered (raw :: raws) = (linePairs raw).bind fun pairs =>
      (gathered raws).map (pairs ++ ·) := rfl

theorem gathered_append {raws raws' : List Str} {pairs : List (Str × IpAddr)} :
    gathered (raws ++ raws') = some pairs ↔
    ∃ front back, gathered raws = some front ∧ gathered raws' = some back ∧
      pairs = front ++ back := by
  induction raws generalizing pairs with
  | nil =>
      constructor
      · intro all
        exact ⟨[], pairs, rfl, all, rfl⟩
      · rintro ⟨front, back, ⟨⟩, all, rfl⟩
        exact all
  | cons raw raws ih =>
      rw [List.cons_append, gathered_cons, gathered_cons]
      cases linePairs raw with
      | none =>
          constructor
          · intro no
            cases no
          · rintro ⟨front, back, no, -⟩
            cases no
      | some first =>
          simp only [Option.bind_some, Option.map_eq_some_iff]
          constructor
          · rintro ⟨rest, all, rfl⟩
            obtain ⟨front, back, left, right, rfl⟩ := ih.mp all
            exact ⟨first ++ front, back, ⟨front, left, rfl⟩, right, (List.append_assoc _ _ _).symm⟩
          · rintro ⟨_, back, ⟨front, left, rfl⟩, right, rfl⟩
            exact ⟨front ++ back, ih.mpr ⟨front, back, left, right, rfl⟩,
              (List.append_assoc _ _ _).symm⟩

theorem fieldsOf_concat (raw : Str) : fieldsOf (raw ++ ['\r']) = fieldsOf raw := by
  unfold fieldsOf
  rw [trim_takeWhile_concat (by decide) (by decide)]

theorem gathered_lines (text : Str) : gathered (lines text) = gathered (text.splitOn '\n') := by
  apply foldr_lines
  · intro raw
    simp only [linePairs, fieldsOf_concat]
  · intro rest
    cases rest <;> rfl

theorem entryCount_eq (text : Str) :
    entryCount text = ((text.splitOn '\n').map fun raw => (fieldsOf raw).length - 1).sum := by
  have folded : ∀ raws : List Str, (raws.map fun raw => (fieldsOf raw).length - 1).sum =
      raws.foldr (fun raw count => (fieldsOf raw).length - 1 + count) 0 := by
    intro raws
    rw [← List.foldr_map, List.sum_eq_foldr]
  rw [entryCount, folded, folded]
  apply foldr_lines
  · intro raw
    rw [fieldsOf_concat]
  · exact Nat.zero_add

theorem length_namedWith {address : IpAddr} {names : List Str}
    (all : namedWith address names = some pairs) :
    pairs.length = names.length := by
  induction names generalizing pairs with
  | nil =>
      cases all
      rfl
  | cons name names ih =>
      obtain ⟨name, -, added⟩ := Option.bind_eq_some_iff.mp all
      obtain ⟨rest, later, rfl⟩ := Option.map_eq_some_iff.mp added
      rw [List.length_cons, ih later, List.length_cons]

theorem length_linePairs {raw : Str} (all : linePairs raw = some pairs) :
    pairs.length = (fieldsOf raw).length - 1 := by
  unfold linePairs at all
  split at all
  · rename_i blank
    cases all
    rw [blank]
    rfl
  · cases all
  · rename_i fields
    obtain ⟨address, -, all⟩ := Option.bind_eq_some_iff.mp all
    rw [length_namedWith all, fields, List.length_cons, Nat.add_sub_cancel]

theorem length_gathered {raws : List Str} (all : gathered raws = some pairs) :
    pairs.length = (raws.map fun raw => (fieldsOf raw).length - 1).sum := by
  induction raws generalizing pairs with
  | nil =>
      cases all
      rfl
  | cons raw raws ih =>
      obtain ⟨first, listed, added⟩ := Option.bind_eq_some_iff.mp all
      obtain ⟨rest, later, rfl⟩ := Option.map_eq_some_iff.mp added
      rw [List.length_append, length_linePairs listed, ih later, List.map_cons, List.sum_cons]

/-! ### The loops add what is listed -/

theorem parseNames_eq_ok {line count : Nat} {address : IpAddr} {names : List Str}
    {state : HostsTable × Nat} (room : count ≤ maxHostsEntries) :
    parseNames line address names (table, count) = .ok state ↔
    ∃ pairs, namedWith address names = some pairs ∧
      count + pairs.length ≤ maxHostsEntries ∧
      state = (table.addPairs pairs, count + pairs.length) := by
  induction names generalizing table count with
  | nil =>
      constructor
      · rintro ⟨⟩
        exact ⟨[], rfl, room, rfl⟩
      · rintro ⟨_, ⟨⟩, -, rfl⟩
        rfl
  | cons name names ih =>
      unfold parseNames namedWith
      rw [refuse_bind_eq_ok_iff]
      cases normal : normalizeName name with
      | error e =>
          constructor
          · rintro ⟨-, no⟩
            cases no
          · rintro ⟨_, no, -⟩
            cases no
      | ok name =>
          change (_ ∧ parseNames line address names (table.add name address, count + 1) =
            .ok state) ↔ _
          simp only [Except.toOption, Option.bind_some, Option.map_eq_some_iff]
          constructor
          · rintro ⟨more, read⟩
            obtain ⟨rest, all, fits, rfl⟩ := (ih (by omega)).mp read
            refine ⟨_, ⟨rest, all, rfl⟩, ?_, ?_⟩
            · rw [List.length_cons]
              omega
            · rw [List.length_cons, Nat.add_assoc, Nat.add_comm 1]
              rfl
          · rintro ⟨_, ⟨rest, all, rfl⟩, fits, rfl⟩
            rw [List.length_cons] at fits
            refine ⟨by omega, (ih (by omega)).mpr ⟨rest, all, by omega, ?_⟩⟩
            rw [List.length_cons, Nat.add_assoc, Nat.add_comm 1]
            rfl

theorem parseLine_eq_ok {line count : Nat} {raw : Str} {state : HostsTable × Nat}
    (room : count ≤ maxHostsEntries) :
    parseLine raw line (table, count) = .ok state ↔ ∃ pairs, linePairs raw = some pairs ∧
      count + pairs.length ≤ maxHostsEntries ∧
      state = (table.addPairs pairs, count + pairs.length) := by
  unfold parseLine linePairs fieldsOf
  dsimp only
  split
  · rename_i blank
    rw [List.isEmpty_iff.mp blank]
    constructor
    · rintro ⟨⟩
      exact ⟨[], rfl, room, rfl⟩
    · rintro ⟨_, ⟨⟩, -, rfl⟩
      rfl
  · rename_i content
    have fielded := splitWhitespace_trim_ne_nil (by simpa using content)
    obtain ⟨first, names, fields⟩ := List.exists_cons_of_ne_nil fielded
    rw [fields]
    dsimp only
    rw [okOr_bind_eq_ok_iff]
    cases names with
    | nil =>
        constructor
        · rintro ⟨address, -, no⟩
          obtain ⟨state', -, no⟩ := bind_eq_ok_iff.mp no
          exact absurd rfl (refuse_bind_eq_ok_iff.mp no).1
        · rintro ⟨_, no, -⟩
          cases no
    | cons name names =>
        simp only [Option.bind_eq_some_iff]
        constructor
        · rintro ⟨address, parsed, read⟩
          obtain ⟨state', named, read⟩ := bind_eq_ok_iff.mp read
          obtain ⟨-, read⟩ := refuse_bind_eq_ok_iff.mp read
          cases read
          obtain ⟨pairs, all, fits, rfl⟩ := (parseNames_eq_ok room).mp named
          exact ⟨pairs, ⟨address, parsed, all⟩, fits, rfl⟩
        · rintro ⟨pairs, ⟨address, parsed, all⟩, fits, rfl⟩
          refine ⟨address, parsed,
            bind_eq_ok_iff.mpr ⟨_, (parseNames_eq_ok room).mpr ⟨pairs, all, fits, rfl⟩, ?_⟩⟩
          exact refuse_bind_eq_ok_iff.mpr ⟨List.cons_ne_nil _ _, rfl⟩

theorem parseLines_eq_ok {raws : List Str} {line count : Nat} {state : HostsTable × Nat}
    (room : count ≤ maxHostsEntries) :
    parseLines raws line (table, count) = .ok state ↔ ∃ pairs, gathered raws = some pairs ∧
      count + pairs.length ≤ maxHostsEntries ∧
      state = (table.addPairs pairs, count + pairs.length) := by
  induction raws generalizing table line count with
  | nil =>
      constructor
      · rintro ⟨⟩
        exact ⟨[], rfl, room, rfl⟩
      · rintro ⟨_, ⟨⟩, -, rfl⟩
        rfl
  | cons raw raws ih =>
      rw [parseLines, gathered_cons, bind_eq_ok_iff]
      simp only [Option.bind_eq_some_iff, Option.map_eq_some_iff]
      constructor
      · rintro ⟨state', first, rest⟩
        obtain ⟨pairs, listed, fits, rfl⟩ := (parseLine_eq_ok room).mp first
        obtain ⟨pairs', all, fits', rfl⟩ := (ih fits).mp rest
        refine ⟨_, ⟨pairs, listed, pairs', all, rfl⟩, ?_, ?_⟩
        · rwa [List.length_append, ← Nat.add_assoc]
        · rw [List.length_append, ← Nat.add_assoc, addPairs_append]
      · rintro ⟨_, ⟨pairs, listed, pairs', all, rfl⟩, fits, rfl⟩
        rw [List.length_append, ← Nat.add_assoc] at fits
        have fits' : count + pairs.length ≤ maxHostsEntries := Nat.le_of_add_right_le fits
        refine ⟨_, (parseLine_eq_ok room).mpr ⟨pairs, listed, fits', rfl⟩,
          (ih fits').mpr ⟨pairs', all, fits, ?_⟩⟩
        rw [List.length_append, ← Nat.add_assoc, addPairs_append]

/-- A source is accepted if it is within the limits and each of its lines is well formed; its table
is what comes of adding what they list. -/
theorem parse_eq_ok {text : Str} : parse text = .ok table ↔ byteLen text ≤ maxHostsBytes ∧
    ∃ pairs, gathered (text.splitOn '\n') = some pairs ∧ pairs.length ≤ maxHostsEntries ∧
      table = addPairs {} pairs := by
  unfold parse
  rw [refuse_bind_eq_ok_iff, Nat.not_lt, bind_eq_ok_iff]
  apply and_congr_right
  intro _
  constructor
  · rintro ⟨state, read, made⟩
    obtain ⟨pairs, all, fits, rfl⟩ := (parseLines_eq_ok (Nat.zero_le _)).mp read
    cases made
    exact ⟨pairs, gathered_lines text ▸ all, by simpa using fits, rfl⟩
  · rintro ⟨pairs, all, fits, rfl⟩
    rw [← gathered_lines] at all
    exact ⟨_, (parseLines_eq_ok (Nat.zero_le _)).mpr ⟨pairs, all, by rwa [Nat.zero_add], rfl⟩, rfl⟩

/-! ### Joined sources -/

/-- The table of two sources is that of the first with the second's merged into it, whatever the
order of the merge. -/
theorem resolve_join {order : List (Str × List IpAddr)} (pairs pairs' : List (Str × IpAddr))
    (perm : order.Perm ((addPairs {} pairs').records.entries.map fun entry => (entry.1, entry.2)))
      (name : Str) :
    (addPairs {} (pairs ++ pairs')).resolve name =
      ((addPairs {} pairs).mergeOrder order).resolve name := by
  have empty : ({} : HostsTable).records.lookup name = none := rfl
  have merged := values_merge perm name
  rw [lookup_addPairs, empty] at merged
  unfold resolve
  rw [addPairs_append, mergeOrder_eq_addPairs, lookup_addPairs _ name pairs',
    lookup_addPairs _ name (spreadOut order), merged]
  by_cases none : values name pairs' = []
  · rw [if_pos none, if_pos none]
    rfl
  · have some_address : (values name pairs').foldl pushNew [] ≠ [] := by
      obtain ⟨address, rest, listed⟩ := List.exists_cons_of_ne_nil none
      exact List.ne_nil_of_mem (mem_foldl_pushNew.mpr (.inr (listed ▸ List.mem_cons_self)))
    rw [if_neg none, if_neg none, Option.getD_some, Option.getD_none, if_neg some_address,
      foldl_pushNew_foldl]
    rfl

/-- Two sources joined by a line feed make the table of the first with the second's merged into it,
whatever the order of the merge, as long as they are within the limits together; where one is
rejected, so are both. -/
theorem parse_join (text text' : Str) :
    (∀ table table', parse text = .ok table → parse text' = .ok table' →
      byteLen (text ++ '\n' :: text') ≤ maxHostsBytes → entryCount (text ++ '\n' :: text') ≤
        maxHostsEntries →
      ∃ joined, parse (text ++ '\n' :: text') = .ok joined ∧
        (∀ name, joined.resolve name = (table.merge table').resolve name) ∧
        (∀ order, order.Perm (table'.records.entries.map fun entry => (entry.1, entry.2)) →
          ∀ name, joined.resolve name = (table.mergeOrder order).resolve name) ∧
        ∀ name addresses, joined.resolve name = some addresses → addresses.Nodup) ∧
    ((∃ e, parse text = .error e) ∨ (∃ e, parse text' = .error e) →
      ∃ e, parse (text ++ '\n' :: text') = .error e) := by
  refine ⟨fun table table' parsed parsed' size entries => ?_, fun rejected => ?_⟩
  · obtain ⟨-, pairs, all, -, rfl⟩ := parse_eq_ok.mp parsed
    obtain ⟨-, pairs', all', -, rfl⟩ := parse_eq_ok.mp parsed'
    have both : gathered ((text ++ '\n' :: text').splitOn '\n') = some (pairs ++ pairs') := by
      rw [List.splitOn_append_cons_self]
      exact gathered_append.mpr ⟨pairs, pairs', all, all', rfl⟩
    rw [entryCount_eq, ← length_gathered both] at entries
    have joined := parse_eq_ok.mpr ⟨size, _, both, entries, rfl⟩
    refine ⟨_, joined, fun name => ?_, fun order perm name => resolve_join pairs pairs' perm name,
      fun name addresses found => (parse_sound joined name addresses found).2.2⟩
    rw [merge_eq_mergeOrder]
    exact resolve_join pairs pairs' (.refl _) name
  · cases joined : parse (text ++ '\n' :: text') with
    | error e => exact ⟨e, rfl⟩
    | ok table =>
        obtain ⟨size, pairs, all, entries, -⟩ := parse_eq_ok.mp joined
        rw [List.splitOn_append_cons_self] at all
        obtain ⟨front, back, before, behind, rfl⟩ := gathered_append.mp all
        rw [byteLen_append, byteLen_cons] at size
        rw [List.length_append] at entries
        rcases rejected with ⟨e, no⟩ | ⟨e, no⟩
        · rw [parse_eq_ok.mpr ⟨by omega, front, before, by omega, rfl⟩] at no
          cases no
        · rw [parse_eq_ok.mpr ⟨by omega, back, behind, by omega, rfl⟩] at no
          cases no

/-- A name of both sources has the addresses of the first, then the new ones of the second. -/
theorem parse_join_example : ∃ joined,
    parse ("192.0.2.1 a b".toList ++ '\n' :: "192.0.2.2 A # b\n192.0.2.1 a".toList) = .ok joined ∧
    joined.resolve "a".toList = some [.v4 ⟨192, 0, 2, 1⟩, .v4 ⟨192, 0, 2, 2⟩] := by
  have merged : ((parse "192.0.2.1 a b".toList).toOption.bind fun table =>
      (parse "192.0.2.2 A # b\n192.0.2.1 a".toList).toOption.bind fun table' =>
        (table.merge table').resolve "a".toList) =
        some [.v4 ⟨192, 0, 2, 1⟩, .v4 ⟨192, 0, 2, 2⟩] := by decide +kernel
  obtain ⟨table, parsed, merged⟩ := Option.bind_eq_some_iff.mp merged
  obtain ⟨table', parsed', merged⟩ := Option.bind_eq_some_iff.mp merged
  obtain ⟨joined, whole, same, -⟩ :=
    (parse_join _ _).1 table table' (toOption_eq_some_iff.mp parsed)
      (toOption_eq_some_iff.mp parsed')
    (by decide +kernel) (by decide +kernel)
  exact ⟨joined, whole, by rw [same, merged]⟩

end HostsTable

end Commeatus.Dns
