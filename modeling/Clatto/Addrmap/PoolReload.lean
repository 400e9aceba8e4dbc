import Clatto.Addrmap.PoolSave
import Clatto.Netip.TextFacts

/-! What was saved can be loaded again. -/

namespace Clatto.Addrmap

open Netip

namespace Scan

theorem byteSize_append (l k : Text) : byteSize (l ++ k) = byteSize l + byteSize k := by
  simp [byteSize]

theorem ofText_line (line l rest : Text) (one : '\n' ∉ l)
    (fits : byteSize (line ++ l) < maxTokenSize) :
    ofText line (l ++ '\n' :: rest) = more (line ++ l) (ofText [] rest) := by
  induction l generalizing line with
  | nil =>
    rw [List.append_nil] at fits ⊢
    rw [List.nil_append, ofText, if_pos rfl, if_neg (Nat.not_le.mpr fits)]
  | cons c l ih =>
    rw [List.mem_cons, not_or] at one
    rw [List.cons_append, ofText, if_neg (Ne.symm one.1), ih _ one.2 (by simpa using fits)]
    simp

theorem ofText_lines {lines : List Text} (one : ∀ l ∈ lines, '\n' ∉ l)
    (fit : ∀ l ∈ lines, byteSize l < maxTokenSize) :
    ofText [] (lines.flatMap (· ++ ['\n'])) = ⟨lines.map dropCR, false⟩ := by
  induction lines with
  | nil => rfl
  | cons l lines ih =>
    obtain ⟨first, later⟩ := List.forall_mem_cons.mp one
    obtain ⟨short, rest⟩ := List.forall_mem_cons.mp fit
    rw [List.flatMap_cons, List.append_assoc]
    rw [show ['\n'] ++ lines.flatMap (· ++ ['\n']) = '\n' :: lines.flatMap (· ++ ['\n']) from rfl,
      ofText_line [] l _ first (by simpa using short), ih later rest]
    rfl

end Scan

def OneWord (text : Text) : Prop := text ≠ [] ∧ ∀ c ∈ text, isSpace c = false

instance (text : Text) : Decidable (OneWord text) :=
  @instDecidableAnd _ _ inferInstance (List.decidableBAll _ _)

theorem OneWord.noNewline {text : Text} (word : OneWord text) : '\n' ∉ text :=
  fun member => absurd (word.2 _ member) (by decide)

theorem fields_three {a b c : Text} (first : OneWord a) (second : OneWord b) (third : OneWord c) :
    fields (a ++ '\t' :: (b ++ '\t' :: c)) = [a, b, c] := by
  rw [fields, List.splitOnP_append_cons_of_forall_mem first.2 _ (by decide),
    List.splitOnP_append_cons_of_forall_mem second.2 _ (by decide),
    List.splitOnP_eq_singleton third.2]
  simp [first.1, second.1, third.1]

theorem parseRow_comment (rest : Text) : parseRow ('#' :: rest) = none := by
  have head : ∃ w ws, fields ('#' :: rest) = ('#' :: w) :: ws := by
    have hash : isSpace '#' = false := by decide
    rw [fields, List.splitOnP_cons_eq_if_modifyHead, hash]
    cases groups : rest.splitOnP isSpace with
    | nil => exact absurd groups (List.splitOnP_ne_nil _ _)
    | cons w ws => simp
  obtain ⟨w, ws, first⟩ := head
  rw [parseRow, first]
  rcases ws with _ | ⟨_, _ | ⟨_, _ | _⟩⟩ <;> simp

/-- A host whose line is read back as it was printed. -/
structure DynHost.Legible (d : DynHost) : Prop where
  v4 : parseAddr d.v4.text = some d.v4
  v6 : parseAddr d.v6.text = some d.v6
  last : parseInt d.lastText 64 = some d.lastUse.toInt
  v4Word : OneWord d.v4.text.toList
  v6Word : OneWord d.v6.text.toList
  lastWord : OneWord d.lastText
  fits : Scan.byteSize d.line ≤ Scan.maxTokenSize

namespace DynHost

def content (d : DynHost) : Text :=
  d.v4.text.toList ++ '\t' :: (d.v6.text.toList ++ '\t' :: d.lastText)

theorem line_eq (d : DynHost) : d.line = d.content ++ ['\n'] := by
  simp [line, content]

variable {d : DynHost}

theorem Legible.noNewline (legible : d.Legible) : '\n' ∉ d.content := by
  simp [content, legible.v4Word.noNewline, legible.v6Word.noNewline, legible.lastWord.noNewline]

theorem Legible.short (legible : d.Legible) : Scan.byteSize d.content < Scan.maxTokenSize := by
  have fits := legible.fits
  rw [line_eq, Scan.byteSize_append] at fits
  exact Nat.lt_of_lt_of_le (Nat.lt_add_of_pos_right (by decide)) fits

/-- A carriage return is white space, so that no line of a host ends with one. -/
theorem Legible.dropCR (legible : d.Legible) : Scan.dropCR d.content = d.content := by
  have word := legible.lastWord
  have last : d.content.getLast? = d.lastText.getLast? := by
    obtain ⟨c, l, same⟩ := List.exists_cons_of_ne_nil word.1
    simp [content, same, List.getLast?_append, List.getLast?_cons]
  rw [Scan.dropCR, last, if_neg]
  intro carriage
  have := word.2 _ (List.mem_of_getLast? carriage)
  simp [isSpace] at this

theorem Legible.parseRow (legible : d.Legible) (four : d.v4.is4) (six : d.v6.is6)
    (used : 0 < d.lastUse.toInt) : parseRow d.content = some ⟨d.v4, d.v6, d.lastUse⟩ := by
  have comment : d.v4.text.toList.head? ≠ some '#' := by
    intro hash
    have parsed := legible.v4
    obtain ⟨rest, same⟩ : ∃ rest, d.v4.text.toList = '#' :: rest := by
      cases chars : d.v4.text.toList with
      | nil => simp [chars] at hash
      | cons c rest =>
        rw [chars] at hash
        cases hash
        exact ⟨rest, rfl⟩
    rw [parseAddr, same] at parsed
    split at parsed
    · simp [ipv4Fields, Char.isDigit] at parsed
    · -- the text of an IPv4 address is not read as one of IPv6
      have six : d.v4.is6 := by
        split at parsed
        · exact parseIPv6Text_is6 parsed
        · split at parsed
          · cases parsed
          · exact parseIPv6Text_is6 parsed
      cases address : d.v4 <;> simp_all [Addr.is4, Addr.is6]
    · cases parsed
  rw [Addrmap.parseRow, content, fields_three legible.v4Word legible.v6Word legible.lastWord]
  simp only [comment, if_false, String.ofList_toList, legible.v4, legible.v6, legible.last]
  rw [if_neg (by simp [four, six]; omega), Int64.ofInt_toInt]

end DynHost

/-- The first lines of a state file, without their ends. -/
def fileHeader (stamp : Stamp) : List Text :=
  ["###".toList, "### clatto dynamic map database".toList,
    "### Last written: ".toList ++ stamp.text, "###".toList, []]

def fileLines (stamp : Stamp) (hosts : List DynHost) : List Text :=
  fileHeader stamp ++ hosts.map DynHost.content

theorem fileText_eq (stamp : Stamp) (hosts : List DynHost) :
    fileText stamp hosts = (fileLines stamp hosts).flatMap (· ++ ['\n']) := by
  have lines : hosts.flatMap DynHost.line = (hosts.map DynHost.content).flatMap (· ++ ['\n']) := by
    have same : DynHost.line = fun d => d.content ++ ['\n'] := funext DynHost.line_eq
    rw [same, List.flatMap_map]
  have front : "###\n### clatto dynamic map database\n### Last written: ".toList =
      "###".toList ++ '\n' :: ("### clatto dynamic map database".toList ++
        '\n' :: "### Last written: ".toList) := by decide
  have back : "\n###\n\n".toList = '\n' :: ("###".toList ++ ['\n', '\n']) := by decide
  unfold fileText fileLines fileHeader
  rw [lines, front, back]
  -- the texts themselves do not matter any more
  generalize "###".toList = mark, "### clatto dynamic map database".toList = title,
    "### Last written: ".toList = written
  simp

theorem ofText_fileText (stamp : Stamp) {hosts : List DynHost}
    (legible : ∀ d ∈ hosts, d.Legible) :
    Scan.ofText [] (fileText stamp hosts) = ⟨(fileLines stamp hosts).map Scan.dropCR, false⟩ := by
  rw [fileText_eq]
  refine Scan.ofText_lines ?_ ?_
  · intro l member
    simp only [fileLines, fileHeader, List.cons_append, List.nil_append, List.mem_cons,
      List.mem_map] at member
    rcases member with rfl | rfl | rfl | rfl | rfl | ⟨d, inside, rfl⟩
    · decide
    · decide
    · rw [List.mem_append, not_or]
      exact ⟨by decide, stamp.oneLine⟩
    · decide
    · decide
    · exact (legible d inside).noNewline
  · intro l member
    simp only [fileLines, fileHeader, List.cons_append, List.nil_append, List.mem_cons,
      List.mem_map] at member
    rcases member with rfl | rfl | rfl | rfl | rfl | ⟨d, inside, rfl⟩
    · decide
    · decide
    · rw [Scan.byteSize_append]
      have short := stamp.short
      have front : Scan.byteSize "### Last written: ".toList = 18 := by decide
      rw [front, Scan.maxTokenSize]
      omega
    · decide
    · decide
    · exact (legible d inside).short

theorem parseRow_header (stamp : Stamp) {l : Text} (member : l ∈ fileHeader stamp) :
    parseRow (Scan.dropCR l) = none := by
  have comment (rest : Text) : parseRow (Scan.dropCR ('#' :: '#' :: rest)) = none := by
    rw [Scan.dropCR]
    split
    · exact parseRow_comment _
    · exact parseRow_comment _
  simp only [fileHeader, List.mem_cons, List.not_mem_nil, or_false] at member
  rcases member with rfl | rfl | rfl | rfl | rfl
  · exact comment _
  · exact comment _
  · exact comment _
  · exact comment _
  · decide

namespace Pool

variable {p q : Pool}

/-- The hosts that have been read so far, all of them dormant, at their places. -/
structure Loaded (q : Pool) (now : Int64) (hosts : List DynHost) (l : Loading) : Prop where
  sound : Loading.Sound q l
  table (off : BitVec 32) : l.pool.table off =
    (hosts.find? fun d => d.off = off).map DynHost.doze
  loaded : l.loaded.map (fun r => (l.pool.host r).off) = hosts.map DynHost.off
  future : l.future = hosts.any fun d => d.lastUse > now

theorem Loaded.nil (sound : q.Sound) (empty : q.table = fun _ => none) (now : Int64) :
    Loaded q now [] ⟨q, 0, false, []⟩ where
  sound := .start sound
  table off := by simp [empty]
  loaded := rfl
  future := rfl

structure Welcome (q : Pool) (d : DynHost) : Prop where
  legible : d.Legible
  inside : q.InRange d.off
  v4 : d.v4 = q.addr d.off
  six : d.v6.is6
  valid : Netutil.validIPv6 d.v6.as16 = true
  used : 0 < d.lastUse.toInt
  unreserved : q.reserved d.v4 = false

theorem Loaded.line {now : Int64} {hosts : List DynHost} {l : Loading} (loaded : Loaded q now hosts l)
    {d : DynHost} (welcome : q.Welcome d) (place : d.off ∉ hosts.map DynHost.off)
    (name : d.v6 ∉ hosts.map DynHost.v6) :
    Loaded q now (hosts ++ [d]) (l.line now (Scan.dropCR d.content)) := by
  have ok := loaded.sound
  have range := ok.keeps.range
  have vacant : l.pool.table d.off = none := by
    rw [loaded.table, Option.map_eq_none_iff, List.find?_eq_none]
    intro e member same
    exact place (List.mem_map.mpr ⟨e, member, by simpa using same⟩)
  have inside : l.pool.InRange d.off := by
    rw [InRange, range]
    exact welcome.inside
  have unused : l.pool.isUsed d.off = false := by
    rw [Bool.eq_false_iff]
    intro used
    rcases (ok.sound.used d.off).mp used with zero | held
    · exact inside.1 zero
    · exact held vacant
  -- a host under this name would have been read before
  have unknown : l.pool.Unknown d.v6 := by
    intro off e held same
    rw [loaded.table, Option.map_eq_some_iff] at held
    obtain ⟨f, found, rfl⟩ := held
    exact name (List.mem_map.mpr ⟨f, List.mem_of_find?_eq_some found, same⟩)
  have accepted : l.pool.accepts ⟨d.v4, d.v6, d.lastUse⟩ = some d.off := by
    refine accepts_eq_some.mpr ⟨inside, ?_, welcome.valid, unused, ?_, ?_, ?_⟩
    · rw [welcome.v4, addr, addr, range]
    · rw [ok.keeps.reserved]
      exact welcome.unreserved
    · by_contra some
      obtain ⟨r, found⟩ := Option.ne_none_iff_exists'.mp some
      obtain ⟨-, held, own, -⟩ := ok.sound.dormant found
      exact unknown _ _ held own
    · by_contra some
      obtain ⟨r, found⟩ := Option.ne_none_iff_exists'.mp some
      obtain ⟨-, held, own, -⟩ := ok.sound.mapped found
      exact unknown _ _ held own
  have four : d.v4.is4 := by rw [welcome.v4]; rfl
  have row := welcome.legible.parseRow four welcome.six welcome.used
  have writes := ok.accept accepted
  have sound := ok.line now (Scan.dropCR d.content)
  rw [welcome.legible.dropCR] at sound ⊢
  simp only [Loading.line, row, accepted] at sound ⊢
  refine ⟨sound, fun off => ?_, ?_, ?_⟩
  · rw [writes.table]
    by_cases here : off = d.off
    · subst here
      have absent : hosts.find? (fun e => e.off = d.off) = none := by
        rwa [loaded.table, Option.map_eq_none_iff] at vacant
      simp [List.find?_append, absent, DynHost.doze]
    · rw [Function.update_of_ne here, loaded.table, List.find?_append]
      simp [Ne.symm here]
  · have old {r : Ref} (member : r ∈ l.loaded) :
        (l.pool.restore ⟨d.v4, d.v6, d.lastUse⟩ d.off).host r = l.pool.host r :=
      (Heap.get_alloc ..).trans (if_neg (Nat.ne_of_lt (ok.live r member)))
    have new : (l.pool.restore ⟨d.v4, d.v6, d.lastUse⟩ d.off).host l.pool.heap.next = d.doze :=
      (Heap.get_alloc ..).trans (if_pos rfl)
    rw [List.map_append, List.map_append, ← loaded.loaded]
    refine congrArg₂ _ (List.map_congr_left fun r member => by rw [old member]) ?_
    simp [new, DynHost.doze]
  · simp [loaded.future]

theorem Loaded.lines {now : Int64} {before hosts : List DynHost} {l : Loading}
    (loaded : Loaded q now before l) (welcome : ∀ d ∈ hosts, q.Welcome d)
    (places : ((before ++ hosts).map DynHost.off).Nodup)
    (names : ((before ++ hosts).map DynHost.v6).Nodup) :
    Loaded q now (before ++ hosts)
      ((hosts.map fun d => Scan.dropCR d.content).foldl (Loading.line now) l) := by
  induction hosts generalizing before l with
  | nil =>
    rw [List.append_nil]
    exact loaded
  | cons d hosts ih =>
    obtain ⟨first, rest⟩ := List.forall_mem_cons.mp welcome
    have split : before ++ d :: hosts = (before ++ [d]) ++ hosts := by simp
    have place : d.off ∉ before.map DynHost.off := by
      rw [List.map_append, List.map_cons, List.nodup_append] at places
      exact fun member => places.2.2 _ member _ List.mem_cons_self rfl
    have name : d.v6 ∉ before.map DynHost.v6 := by
      rw [List.map_append, List.map_cons, List.nodup_append] at names
      exact fun member => names.2.2 _ member _ List.mem_cons_self rfl
    rw [split] at places names ⊢
    exact ih (loaded.line first place name) rest places names

theorem skip_lines {now : Int64} {lines : List Text} (skipped : ∀ line ∈ lines, parseRow line = none)
    (l : Loading) : lines.foldl (Loading.line now) l = l := by
  induction lines with
  | nil => rfl
  | cons line lines ih =>
    obtain ⟨first, rest⟩ := List.forall_mem_cons.mp skipped
    rw [List.foldl_cons, Loading.line, first]
    exact ih rest

theorem Loaded.file {now : Int64} {hosts : List DynHost} (sound : q.Sound)
    (empty : q.table = fun _ => none) (stamp : Stamp) (welcome : ∀ d ∈ hosts, q.Welcome d)
    (places : (hosts.map DynHost.off).Nodup) (names : (hosts.map DynHost.v6).Nodup) :
    Loaded q now hosts
      ((Scan.ofText [] (fileText stamp hosts)).lines.foldl (Loading.line now) ⟨q, 0, false, []⟩) := by
  have header : ∀ line ∈ (fileHeader stamp).map Scan.dropCR, parseRow line = none := by
    intro line member
    obtain ⟨l, inside, rfl⟩ := List.mem_map.mp member
    exact parseRow_header stamp inside
  rw [ofText_fileText stamp fun d member => (welcome d member).legible, fileLines,
    List.map_append, List.map_map, List.foldl_append, skip_lines header]
  exact (Loaded.nil sound empty now).lines welcome places names

theorem range_eq_of_pfx {r s : Range} (same : r.pfx = s.pfx) : r = s := by
  obtain ⟨pfx, base, max, bits, four, len, _, _, _, max_eq, _⟩ := r
  obtain ⟨pfx', base', max', bits', four', len', _, _, _, max_eq', _⟩ := s
  dsimp only at same four four' len len' max_eq max_eq'
  subst same
  obtain rfl : base = base' := Addr.v4.inj (four.symm.trans four')
  obtain rfl : bits = bits' := Option.some.inj (len.symm.trans len')
  subst max_eq max_eq'
  rfl

theorem Invariant.names (inv : p.Invariant) (order : Order) :
    ((p.hosts order).map DynHost.v6).Nodup := by
  have keys : ((order.list p.mapped ++ order.list p.dormant).map fun d => (p.host d.2).v6) =
      (order.list p.mapped).map Sigma.fst ++ (order.list p.dormant).map Sigma.fst := by
    rw [List.map_append]
    refine congrArg₂ _ (List.map_congr_left fun d member => ?_)
      (List.map_congr_left fun d member => ?_)
    · exact (inv.mapped d.1 d.2 ((mem_order ..).mp member)).1
    · exact (inv.dormant d.1 d.2 ((mem_order ..).mp member)).1
  have sorted := (List.mergeSort_perm ((order.list p.mapped ++ order.list p.dormant).map
    fun d => p.host d.2) fun d e => d.off ≤ e.off).map DynHost.v6
  rw [List.map_map] at sorted
  refine sorted.nodup_iff.mpr ?_
  rw [show DynHost.v6 ∘ (fun d => p.host d.2) = fun d : Sigma fun _ : Addr => Ref =>
    (p.host d.2).v6 from rfl, keys, List.nodup_append]
  refine ⟨distinct_keys .., distinct_keys .., fun a mapped b dormant same => ?_⟩
  subst same
  obtain ⟨⟨_, r⟩, inside, rfl⟩ := List.mem_map.mp mapped
  obtain ⟨⟨b, s⟩, inside', same⟩ := List.mem_map.mp dormant
  obtain rfl : b = _ := same
  rcases inv.apart b with none | none
  · cases none.symm.trans ((mem_order ..).mp inside)
  · cases none.symm.trans ((mem_order ..).mp inside')

theorem Invariant.places (inv : p.Invariant) (order : Order) :
    ((p.hosts order).map DynHost.off).Nodup := by
  rw [List.Nodup, List.pairwise_map]
  have names := inv.names order
  rw [List.Nodup, List.pairwise_map] at names
  refine names.imp_of_mem fun {d e} one other different => ?_
  obtain ⟨r, held, rfl⟩ := (mem_hosts order).mp one
  obtain ⟨s, held', rfl⟩ := (mem_hosts order).mp other
  exact (inv.distinct r s held held' fun same => different (by rw [same])).1

theorem length_hosts (order : Order) :
    (p.hosts order).length = p.mapped.entries.length + p.dormant.entries.length := by
  rw [hosts, List.length_mergeSort, List.length_map, List.length_append,
    (order.perm p.mapped).length_eq, (order.perm p.dormant).length_eq]

theorem find?_off {hosts : List DynHost} (places : (hosts.map DynHost.off).Nodup) {d : DynHost}
    (member : d ∈ hosts) : hosts.find? (fun e => e.off = d.off) = some d := by
  induction hosts with
  | nil => cases member
  | cons e hosts ih =>
    rw [List.map_cons, List.nodup_cons] at places
    rcases List.mem_cons.mp member with rfl | later
    · simp
    · have different : e.off ≠ d.off := fun same =>
        places.1 (same ▸ List.mem_map_of_mem later)
      rw [List.find?_cons_of_neg (by simpa using different)]
      exact ih places.2 later

theorem read_written (sound : q.Sound) (empty : q.table = fun _ => none) (stamp : Stamp)
    (m : Moment) {hosts : List DynHost} (welcome : ∀ d ∈ hosts, q.Welcome d)
    (places : (hosts.map DynHost.off).Nodup) (names : (hosts.map DynHost.v6).Nodup) :
    (q.read m (Scan.ofText [] (fileText stamp hosts))).1 = (hosts.length, true) ∧
      (q.read m (Scan.ofText [] (fileText stamp hosts))).2.Sound ∧
      ∀ off, (q.read m (Scan.ofText [] (fileText stamp hosts))).2.table off =
        (hosts.find? fun d => d.off = off).map fun d =>
          d.doze.settled (hosts.any fun d => d.lastUse > m.now.unix) m.now.unix
            q.minLease.seconds := by
  have loaded := @Loaded.file _ m.now.unix _ sound empty stamp welcome places names
  have complete : (Scan.ofText [] (fileText stamp hosts)).failed = false := by
    rw [ofText_fileText stamp fun d member => (welcome d member).legible]
  rw [read, complete]
  generalize (Scan.ofText [] (fileText stamp hosts)).lines.foldl _ _ = l at loaded
  have settled := settle_all l.future m.now.unix q.minLease.seconds l.loaded
    loaded.sound.sound loaded.sound.distinct loaded.sound.dormant
  rw [loaded.loaded] at settled
  refine ⟨?_, settled.sound, fun off => ?_⟩
  · have count := congrArg List.length loaded.loaded
    simp only [List.length_map] at count
    simp [loaded.sound.count, count]
  · simp only [Bool.false_eq_true, if_false]
    rw [settled.table, loaded.table, loaded.future]
    cases found : hosts.find? fun d => d.off = off with
    | none => rfl
    | some d =>
      have here : off ∈ hosts.map DynHost.off :=
        List.mem_map.mpr ⟨d, List.mem_of_find?_eq_some found, by simpa using List.find?_some found⟩
      simp [here]

/-- If the clock has not gone back, a loaded host is awake when its lease still runs. -/
theorem settled_past {d : DynHost} {t : Time} (lease : Duration) (used : 0 < d.lastUse.toInt)
    (past : d.lastUse.toInt ≤ t.unix.toInt) :
    d.doze.settled false t.unix lease.seconds =
      if t.unix.toInt ≤ d.lastUse.toInt + lease.seconds.toInt then d.wake else d.doze := by
  have sum := Time.toInt_add_seconds used past lease
  have compare : d.lastUse + lease.seconds ≥ t.unix ↔
      t.unix.toInt ≤ d.lastUse.toInt + lease.seconds.toInt := by
    rw [ge_iff_le, Int64.le_iff_toInt_le, sum]
  rw [DynHost.settled]
  simp only [Bool.false_eq_true, if_false, compare, DynHost.doze]
  rfl

end Pool

end Clatto.Addrmap
