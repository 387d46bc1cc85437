import NulConnect.Macos.TunNetworkReads

/-! How the helper finds the default gateway and the interface of the tunnel in what `route`,
`netstat` and `ifconfig` print. -/
namespace NulConnect.Macos
open Net

/-- What the command says on both its outputs, whatever its status. -/
def commandText : Except Text CommandOutput → Except AtrError Text
  | .error err => .error (.networkFailed err)
  | .ok output =>
    let text := fromUtf8Lossy output.stdout
    .ok (if output.stderr = [] then text else text ++ fromUtf8Lossy output.stderr)

def gatewayOfLine (line : Text) : Option Text :=
  let trimmed := trim line
  if "gateway:".toList.isPrefixOf trimmed then
    let gateway := trim (trimmed.drop "gateway:".toList.length)
    if (Ipv4Addr.parse gateway).isSome then some gateway else none
  else none

def noGateway : AtrError :=
  .networkFailed "unable to discover default IPv4 gateway".toList

def defaultIpv4Gateway (route : Except Text CommandOutput) : Except AtrError Text := do
  let text ← commandText route
  match (lines text).findSome? gatewayOfLine with
  | some gateway => .ok gateway
  | none => .error noGateway

/-- `str::split_whitespace`. -/
def splitWhitespace (s : Text) : List Text := (s.splitOnP isWhitespace).filter (· ≠ [])

/-- The interface of a route to the other end of the tunnel. -/
def tunOfFields (fields : List Text) : Option Text :=
  if 4 ≤ fields.length ∧ fields.head? = some "10.0.0.1".toList then
    fields.getLast?.filter fun iface => "utun".toList.isPrefixOf iface
  else none

/-- Two lines that follow each other. -/
def tunOfBlock (header body : Text) : Option Text :=
  if "utun".toList.isPrefixOf header ∧ containsText body "inet ".toList then
    (splitOnce ':' header).map Prod.fst
  else none

/-- The first of the lines that is the header of such a block. -/
def tunOfLines (block : List Text) : Option Text :=
  (block.zip block.tail).findSome? fun p => tunOfBlock p.1 p.2

def noTun : AtrError := .networkFailed "unable to discover TUN interface after start".toList

def discoverTunName (netstat ifconfig : Except Text CommandOutput) : Except AtrError Text := do
  let text ← commandText netstat
  match (lines text).findSome? fun line => tunOfFields (splitWhitespace line) with
  | some name => .ok name
  | none =>
    let text ← commandText ifconfig
    match tunOfLines (text.splitOn '\n') with
    | some name => .ok name
    | none => .error noTun

section Printed

/-- A line of a table: the fields with the blanks behind them, which are one more between two. -/
def printRow : List (Text × ℕ) → Text
  | [] => []
  | [cell] => cell.1 ++ List.replicate cell.2 ' '
  | cell :: row => cell.1 ++ ' ' :: (List.replicate cell.2 ' ' ++ printRow row)

def printTable (rows : List (List (Text × ℕ))) : Text := unlines (rows.map printRow)

/-- The names of the properties stand to the right of their column. -/
def printProperty (p : Text × Text) : Text :=
  List.replicate (11 - p.1.length) ' ' ++ (p.1 ++ ": ".toList ++ p.2)

/-- What `route -n get` prints of a route: its properties, and a table of its metrics. -/
def printRoute (properties : List (Text × Text)) (metrics : List Text) : Text :=
  unlines (properties.map printProperty ++ metrics)

/-- An interface, as `ifconfig` describes it. -/
structure Interface where
  name : Text
  flags : Text
  details : List Text

def Interface.header (i : Interface) : Text := i.name ++ ": ".toList ++ i.flags

def Interface.lines (i : Interface) : List Text := i.header :: i.details.map ('\t' :: ·)

def printInterfaces (interfaces : List Interface) : Text := unlines (interfaces.flatMap (·.lines))

end Printed

/-- A field of a table. -/
def IsWord (s : Text) : Prop := s ≠ [] ∧ ∀ c ∈ s, isWhitespace c = false

structure IsProperty (p : Text × Text) : Prop where
  key : IsField p.1
  colon : ':' ∉ p.1
  value : IsField p.2

structure Interface.IsPlain (i : Interface) : Prop where
  name : ':' ∉ i.name ∧ '\n' ∉ i.name
  flags : '\n' ∉ i.flags
  noAddress : containsText i.header "inet ".toList = false
  details : ∀ line ∈ i.details, '\n' ∉ line

/-- A tunnel that has an address right under its header. -/
def Interface.isTun (i : Interface) : Bool :=
  "utun".toList.isPrefixOf i.header && i.details.head?.any fun line =>
    containsText line "inet ".toList

/-- The default gateway where it is an IPv4 address. -/
def isGateway (p : Text × Text) : Bool :=
  p.1 = "gateway".toList ∧ (Ipv4Addr.parse p.2).isSome

section Fields

variable {s t : Text} {c : Char}

theorem isWord_of_all (hne : s ≠ []) (h : s.all fun c => !isWhitespace c) : IsWord s :=
  ⟨hne, fun c hc => by simpa using List.all_eq_true.mp h c hc⟩

theorem splitWhitespace_append_cons (hc : isWhitespace c) :
    splitWhitespace (s ++ c :: t) = splitWhitespace s ++ splitWhitespace t := by
  unfold splitWhitespace
  rw [List.splitOnP_append_cons s t hc, List.filter_append]

theorem splitWhitespace_word (h : IsWord s) : splitWhitespace s = [s] := by
  rw [splitWhitespace, List.splitOnP_eq_singleton h.2]
  simp [h.1]

theorem splitWhitespace_nil : splitWhitespace [] = [] := rfl

theorem splitWhitespace_blanks (n : ℕ) (t : Text) :
    splitWhitespace (List.replicate n ' ' ++ t) = splitWhitespace t := by
  induction n with
  | zero => rfl
  | succ n ih =>
    rw [List.replicate_succ, List.cons_append, ← List.nil_append (' ' :: _),
      splitWhitespace_append_cons (by decide), splitWhitespace_nil, List.nil_append, ih]

theorem splitWhitespace_printRow {row : List (Text × ℕ)} (h : ∀ cell ∈ row, IsWord cell.1) :
    splitWhitespace (printRow row) = row.map Prod.fst := by
  induction row using printRow.induct with
  | case1 => rfl
  | case2 cell =>
    have hword := splitWhitespace_word (h cell List.mem_cons_self)
    rw [printRow]
    cases cell.2 with
    | zero => rw [List.replicate_zero, List.append_nil, hword, List.map_singleton]
    | succ n =>
      rw [List.replicate_succ, splitWhitespace_append_cons (by decide), hword,
        ← List.append_nil (List.replicate n ' '), splitWhitespace_blanks, splitWhitespace_nil]
      rfl
  | case3 cell row hrow ih =>
    rw [List.forall_mem_cons] at h
    rw [printRow, splitWhitespace_append_cons (by decide), splitWhitespace_word h.1,
      splitWhitespace_blanks, ih h.2, List.map_cons, List.singleton_append]
    exact hrow

theorem splitWhitespace_stripReturn (s : Text) :
    splitWhitespace (stripReturn s) = splitWhitespace s := by
  unfold stripReturn
  split_ifs with hlast
  · have hs : s = s.dropLast ++ ['\r'] := (List.dropLast_append_getLast? _ hlast).symm
    conv_rhs => rw [hs]
    rw [splitWhitespace_append_cons (by decide), splitWhitespace_nil, List.append_nil]
  · rfl

theorem newline_notMem_word (h : IsWord s) : '\n' ∉ s := fun hmem =>
  absurd (h.2 _ hmem) (by decide)

theorem newline_notMem_printRow {row : List (Text × ℕ)} (h : ∀ cell ∈ row, IsWord cell.1) :
    '\n' ∉ printRow row := by
  have hblanks : ∀ n, '\n' ∉ List.replicate n ' ' := fun n hmem =>
    absurd (List.eq_of_mem_replicate hmem) (by decide)
  induction row using printRow.induct with
  | case1 => exact List.not_mem_nil
  | case2 cell =>
    rw [printRow, List.mem_append, not_or]
    exact ⟨newline_notMem_word (h cell List.mem_cons_self), hblanks _⟩
  | case3 cell row hrow ih =>
    rw [List.forall_mem_cons] at h
    rw [printRow, List.mem_append, List.mem_cons, List.mem_append, not_or, not_or, not_or]
    · exact ⟨newline_notMem_word h.1, by decide, hblanks _, ih h.2⟩
    · exact hrow

theorem lines_printTable {rows : List (List (Text × ℕ))}
    (h : ∀ row ∈ rows, ∀ cell ∈ row, IsWord cell.1) :
    (lines (printTable rows)).map splitWhitespace = rows.map (·.map Prod.fst) := by
  have hlines : ∀ part ∈ rows.map printRow, '\n' ∉ part := by
    rw [List.forall_mem_map]
    exact fun row hrow => newline_notMem_printRow (h row hrow)
  rw [printTable, lines_unlines hlines, List.map_map, List.map_map]
  apply List.map_congr_left
  intro row hrow
  rw [Function.comp_apply, Function.comp_apply, splitWhitespace_stripReturn,
    splitWhitespace_printRow (h row hrow)]

end Fields

theorem findSome_eq_map_find {α β : Type*} {f : α → Option β} {q : α → Bool} {g : α → β}
    {l : List α} (h : ∀ x ∈ l, f x = if q x then some (g x) else none) :
    l.findSome? f = (l.find? q).map g := by
  induction l with
  | nil => rfl
  | cons x l ih =>
    rw [List.forall_mem_cons] at h
    rw [List.findSome?_cons, List.find?_cons, h.1, ih h.2]
    cases q x <;> rfl

section Gateway

variable {p : Text × Text}

theorem trim_property (h : IsProperty p) :
    trim (printProperty p) = p.1 ++ ": ".toList ++ p.2 := by
  rw [printProperty, trim_blanks]
  apply trimMatches_eq_self
  · intro c hc
    rw [List.append_assoc, List.head?_append_of_ne_nil _ h.key.nonempty, ← h.key.trimmed] at hc
    exact trimMatches_head hc
  · intro c hc
    rw [List.getLast?_append_of_ne_nil _ h.value.nonempty, ← h.value.trimmed] at hc
    exact trimMatches_getLast hc

theorem gatewayOfLine_property (h : IsProperty p) :
    gatewayOfLine (printProperty p) = if isGateway p then some p.2 else none := by
  have hline : p.1 ++ ": ".toList ++ p.2 = p.1 ++ ':' :: ' ' :: p.2 := by simp
  have hgateway : "gateway:".toList = "gateway".toList ++ [':'] := rfl
  have hvalue : trim (' ' :: p.2) = p.2 := (trim_blanks 1 p.2).trans h.value.trimmed
  unfold gatewayOfLine
  rw [trim_property h, hline]
  by_cases hkey : p.1 = "gateway".toList
  · have hprefix : "gateway:".toList.isPrefixOf (p.1 ++ ':' :: ' ' :: p.2) := by
      rw [hkey, hgateway, List.isPrefixOf_iff_prefix]
      exact ⟨' ' :: p.2, by simp⟩
    have hrest : (p.1 ++ ':' :: ' ' :: p.2).drop "gateway:".toList.length = ' ' :: p.2 := by
      rw [hkey]
      rfl
    rw [if_pos hprefix, hrest, hvalue]
    simp [isGateway, hkey]
  · have hprefix : ¬ "gateway:".toList.isPrefixOf (p.1 ++ ':' :: ' ' :: p.2) := by
      intro hfront
      obtain ⟨rest, hrest⟩ := List.isPrefixOf_iff_prefix.mp hfront
      rw [hgateway, List.append_assoc, List.singleton_append] at hrest
      have hsplit := congrArg (splitOnce ':') hrest
      rw [splitOnce_append (by decide), splitOnce_append h.colon] at hsplit
      exact hkey (Prod.mk.inj (Option.some.inj hsplit)).1.symm
    have hother : isGateway p = false := decide_eq_false fun h => hkey h.1
    rw [if_neg hprefix, hother]
    rfl

/-- Only a line with a colon can give a gateway. -/
theorem gatewayOfLine_metric {line : Text} (h : ':' ∉ line) : gatewayOfLine line = none := by
  have hprefix : ¬ "gateway:".toList.isPrefixOf (trim line) := by
    intro hfront
    have hcolon : ':' ∈ "gateway:".toList := by decide
    exact h (mem_of_mem_trim ((List.isPrefixOf_iff_prefix.mp hfront).subset hcolon))
  exact if_neg hprefix

end Gateway

section Interfaces

theorem tunOfLines_cons (header body : Text) (rest : List Text) :
    tunOfLines (header :: body :: rest) = (tunOfBlock header body).or
      (tunOfLines (body :: rest)) := by
  simp only [tunOfLines, List.tail_cons, List.zip_cons_cons, List.findSome?_cons]
  cases tunOfBlock header body <;> rfl

theorem containsText_tab (line : Text) :
    containsText ('\t' :: line) "inet ".toList = containsText line "inet ".toList := by
  simp [containsText]

/-- No interface begins in the lines that describe one. -/
theorem tunOfLines_details (details : List Text) {rest : List Text} (hrest : rest ≠ []) :
    tunOfLines (details.map ('\t' :: ·) ++ rest) = tunOfLines rest := by
  induction details with
  | nil => rfl
  | cons line details ih =>
    obtain ⟨body, after, hbody⟩ := List.exists_cons_of_ne_nil
      (List.append_ne_nil_of_right_ne_nil (details.map ('\t' :: ·)) hrest)
    have hnone : tunOfBlock ('\t' :: line) body = none := by
      simp [tunOfBlock]
    rw [List.map_cons, List.cons_append, hbody, tunOfLines_cons, hnone, ← hbody, Option.none_or, ih]

theorem tunOfLines_interface {i : Interface} (hi : i.IsPlain) {next : Text} {rest : List Text}
    (hnext : containsText next "inet ".toList = false) :
    tunOfLines (i.lines ++ next :: rest) =
      if i.isTun then some i.name else tunOfLines (next :: rest) := by
  have hname : splitOnce ':' i.header = some (i.name, ' ' :: i.flags) := by
    have hheader : i.header = i.name ++ ':' :: ' ' :: i.flags := by simp [Interface.header]
    rw [hheader, splitOnce_append hi.name.1]
  cases hdetails : i.details with
  | nil =>
    have hnone : tunOfBlock i.header next = none := by
      unfold tunOfBlock
      rw [hnext]
      exact if_neg fun h => absurd h.2 Bool.false_ne_true
    simp [Interface.lines, hdetails, tunOfLines_cons, hnone, Interface.isTun]
  | cons line details =>
    have hrest := tunOfLines_details (line :: details) (List.cons_ne_nil next rest)
    have hlines : i.lines ++ next :: rest =
        i.header :: ('\t' :: line) :: (details.map ('\t' :: ·) ++ next :: rest) := by
      simp [Interface.lines, hdetails]
    have hblock : tunOfBlock i.header ('\t' :: line) =
        if i.isTun then some i.name else none := by
      unfold tunOfBlock Interface.isTun
      rw [containsText_tab, hname, hdetails]
      simp
    rw [hlines, tunOfLines_cons, hblock]
    rw [List.map_cons, List.cons_append] at hrest
    rw [hrest]
    split_ifs <;> rfl

theorem tunOfLines_interfaces {interfaces : List Interface} (h : ∀ i ∈ interfaces, i.IsPlain) :
    tunOfLines (interfaces.flatMap (·.lines) ++ [[]]) =
      (interfaces.find? Interface.isTun).map Interface.name := by
  induction interfaces with
  | nil => rfl
  | cons i interfaces ih =>
    rw [List.forall_mem_cons] at h
    obtain ⟨next, rest, hrest, hnext⟩ : ∃ next rest,
        interfaces.flatMap (·.lines) ++ [[]] = next :: rest ∧
          containsText next "inet ".toList = false := by
      cases interfaces with
      | nil => exact ⟨[], [], rfl, by decide⟩
      | cons j interfaces => exact ⟨j.header, _, rfl, (h.2 j List.mem_cons_self).noAddress⟩
    rw [List.flatMap_cons, List.append_assoc, hrest, tunOfLines_interface h.1 hnext, ← hrest,
      ih h.2, List.find?_cons]
    cases i.isTun <;> rfl

theorem splitOn_printInterfaces {interfaces : List Interface} (h : ∀ i ∈ interfaces, i.IsPlain) :
    (printInterfaces interfaces).splitOn '\n' = interfaces.flatMap (·.lines) ++ [[]] := by
  apply splitOn_unlines
  intro part hpart
  obtain ⟨i, hi, hmem⟩ := List.mem_flatMap.mp hpart
  obtain rfl | hdetail := List.mem_cons.mp hmem
  · have hsep : '\n' ∉ ": ".toList := by decide
    simp only [Interface.header, List.mem_append, not_or]
    exact ⟨⟨(h i hi).name.2, hsep⟩, (h i hi).flags⟩
  · obtain ⟨line, hline, rfl⟩ := List.mem_map.mp hdetail
    simpa using (h i hi).details line hline

end Interfaces

theorem commandText_succeeded (text : Text) : commandText (succeeded text) = .ok text := by
  simp [commandText, succeeded, fromUtf8Lossy_toUtf8]

theorem defaultIpv4Gateway_printed {properties : List (Text × Text)} {metrics : List Text}
    (h : ∀ p ∈ properties, IsProperty p) (hmetrics : ∀ line ∈ metrics, ':' ∉ line ∧ '\n' ∉ line) :
    defaultIpv4Gateway (succeeded (printRoute properties metrics)) =
      ((properties.find? isGateway).map Prod.snd).elim (.error noGateway) .ok := by
  have hlines : ∀ part ∈ properties.map printProperty ++ metrics, '\n' ∉ part := by
    rw [List.forall_mem_append, List.forall_mem_map]
    refine ⟨fun p hp => ?_, fun line hline => (hmetrics line hline).2⟩
    have hsep : '\n' ∉ ": ".toList := by decide
    rw [printProperty]
    simp only [List.mem_append, not_or]
    refine ⟨fun hmem => ?_, ⟨(h p hp).key.line, hsep⟩, (h p hp).value.line⟩
    exact absurd (List.eq_of_mem_replicate hmem) (by decide)
  have hreturn : ∀ line, gatewayOfLine (stripReturn line) = gatewayOfLine line := fun line => by
    rw [gatewayOfLine, trim_stripReturn, gatewayOfLine]
  have hnone : metrics.findSome? gatewayOfLine = none :=
    List.findSome?_eq_none_iff.mpr fun line hline => gatewayOfLine_metric (hmetrics line hline).1
  have hfind : (lines (printRoute properties metrics)).findSome? gatewayOfLine =
      (properties.find? isGateway).map Prod.snd := by
    calc (lines (printRoute properties metrics)).findSome? gatewayOfLine
        = (properties.map printProperty ++ metrics).findSome? gatewayOfLine := by
          rw [printRoute, lines_unlines hlines, List.findSome?_map]
          exact congrArg (List.findSome? · _) (funext hreturn)
      _ = properties.findSome? (gatewayOfLine ∘ printProperty) := by
          rw [List.findSome?_append, hnone, Option.or_none, List.findSome?_map]
      _ = (properties.find? isGateway).map Prod.snd :=
          findSome_eq_map_find fun p hp => gatewayOfLine_property (h p hp)
  unfold defaultIpv4Gateway
  rw [commandText_succeeded]
  simp only [bind, Except.bind]
  rw [hfind]
  cases (properties.find? isGateway).map Prod.snd <;> rfl

theorem discoverTunName_printed {rows : List (List (Text × ℕ))} {interfaces : List Interface}
    (hrows : ∀ row ∈ rows, ∀ cell ∈ row, IsWord cell.1)
    (hinterfaces : ∀ i ∈ interfaces, i.IsPlain) :
    discoverTunName (succeeded (printTable rows)) (succeeded (printInterfaces interfaces)) =
      ((rows.findSome? fun row => tunOfFields (row.map Prod.fst)).or
        ((interfaces.find? Interface.isTun).map Interface.name)).elim (.error noTun) .ok := by
  have hfind : ((lines (printTable rows)).findSome? fun line =>
      tunOfFields (splitWhitespace line)) =
        rows.findSome? fun row => tunOfFields (row.map Prod.fst) := by
    have hmap := congrArg (List.findSome? tunOfFields) (lines_printTable hrows)
    rwa [List.findSome?_map, List.findSome?_map] at hmap
  unfold discoverTunName
  rw [commandText_succeeded, commandText_succeeded]
  simp only [bind, Except.bind]
  rw [hfind, splitOn_printInterfaces hinterfaces, tunOfLines_interfaces hinterfaces]
  cases rows.findSome? fun row => tunOfFields (row.map Prod.fst) with
  | some name => rfl
  | none => cases (interfaces.find? Interface.isTun).map Interface.name <;> rfl

section Found

theorem parse_of_gatewayOfLine {line gateway : Text} (h : gatewayOfLine line = some gateway) :
    (Ipv4Addr.parse gateway).isSome := by
  unfold gatewayOfLine at h
  dsimp only at h
  split_ifs at h with hprefix hparse
  obtain rfl := Option.some.inj h
  exact hparse

theorem prefix_of_tunOfFields {fields : List Text} {name : Text}
    (h : tunOfFields fields = some name) : "utun".toList <+: name := by
  unfold tunOfFields at h
  split_ifs at h
  exact List.isPrefixOf_iff_prefix.mp (Option.filter_eq_some_iff.mp h).2

/-- The colon comes behind the part of the header that is looked at. -/
theorem prefix_of_tunOfBlock {header body name : Text} (h : tunOfBlock header body = some name) :
    "utun".toList <+: name := by
  unfold tunOfBlock at h
  split_ifs at h with hblock
  obtain ⟨p, hp, rfl⟩ := Option.map_eq_some_iff.mp h
  have hheader : header = p.1 ++ ':' :: p.2 := splitOnce_eq_some hp
  have hfront : "utun".toList <+: p.1 ++ ':' :: p.2 := by
    rw [← hheader]
    exact List.isPrefixOf_iff_prefix.mp hblock.1
  cases List.prefix_or_prefix_of_prefix hfront (List.prefix_append p.1 _) with
  | inl hname => exact hname
  | inr hshort =>
    -- a shorter name would put the colon into these letters
    by_contra hnot
    obtain ⟨rest, hrest⟩ := hshort
    obtain ⟨after, hafter⟩ := hfront
    cases rest with
    | nil => exact hnot ⟨[], by rw [← hrest, List.append_nil, List.append_nil]⟩
    | cons c rest =>
      rw [← hrest, List.append_assoc, List.append_cancel_left_eq, List.cons_append] at hafter
      obtain rfl : c = ':' := (List.cons.inj hafter).1
      have hmem : ':' ∈ "utun".toList := by
        rw [← hrest]
        exact List.mem_append_right _ List.mem_cons_self
      exact absurd hmem (by decide)

theorem exists_of_bind {ε α β : Type*} {x : Except ε α} {f : α → Except ε β} {b : β}
    (h : x.bind f = .ok b) : ∃ a, x = .ok a ∧ f a = .ok b := by
  cases x with
  | error err => cases h
  | ok a => exact ⟨a, rfl, h⟩

theorem parse_of_defaultIpv4Gateway {route : Except Text CommandOutput} {gateway : Text}
    (h : defaultIpv4Gateway route = .ok gateway) : (Ipv4Addr.parse gateway).isSome := by
  obtain ⟨text, -, htext⟩ := exists_of_bind h
  cases hfind : (lines text).findSome? gatewayOfLine with
  | none =>
    rw [hfind] at htext
    cases htext
  | some found =>
    rw [hfind] at htext
    obtain rfl := Except.ok.inj htext
    obtain ⟨line, -, hline⟩ := List.exists_of_findSome?_eq_some hfind
    exact parse_of_gatewayOfLine hline

theorem prefix_of_discoverTunName {netstat ifconfig : Except Text CommandOutput} {name : Text}
    (h : discoverTunName netstat ifconfig = .ok name) : "utun".toList <+: name := by
  obtain ⟨text, -, htext⟩ := exists_of_bind h
  cases hfind : (lines text).findSome? fun line => tunOfFields (splitWhitespace line) with
  | some found =>
    rw [hfind] at htext
    obtain rfl := Except.ok.inj htext
    obtain ⟨line, -, hline⟩ := List.exists_of_findSome?_eq_some hfind
    exact prefix_of_tunOfFields hline
  | none =>
    rw [hfind] at htext
    obtain ⟨blocks, -, hblocks⟩ := exists_of_bind htext
    cases htun : tunOfLines (blocks.splitOn '\n') with
    | none =>
      rw [htun] at hblocks
      cases hblocks
    | some found =>
      rw [htun] at hblocks
      obtain rfl := Except.ok.inj hblocks
      obtain ⟨p, -, hp⟩ := List.exists_of_findSome?_eq_some htun
      exact prefix_of_tunOfBlock hp

end Found

/-- What is found of any output can be used, and of what is printed it is what there is. -/
theorem discovered_printed {properties : List (Text × Text)} {metrics : List Text}
    {rows : List (List (Text × ℕ))} {interfaces : List Interface}
    (hproperties : ∀ p ∈ properties, IsProperty p)
    (hmetrics : ∀ line ∈ metrics, ':' ∉ line ∧ '\n' ∉ line)
    (hrows : ∀ row ∈ rows, ∀ cell ∈ row, IsWord cell.1)
    (hinterfaces : ∀ i ∈ interfaces, i.IsPlain) :
    (∀ route gateway, defaultIpv4Gateway route = .ok gateway →
        (Ipv4Addr.parse gateway).isSome) ∧
      (∀ netstat ifconfig name, discoverTunName netstat ifconfig = .ok name →
        "utun".toList <+: name) ∧
      defaultIpv4Gateway (succeeded (printRoute properties metrics)) =
        ((properties.find? isGateway).map Prod.snd).elim (.error noGateway) .ok ∧
      discoverTunName (succeeded (printTable rows)) (succeeded (printInterfaces interfaces)) =
        ((rows.findSome? fun row => tunOfFields (row.map Prod.fst)).or
          ((interfaces.find? Interface.isTun).map Interface.name)).elim (.error noTun) .ok :=
  ⟨fun _ _ h => parse_of_defaultIpv4Gateway h, fun _ _ _ h => prefix_of_discoverTunName h,
    defaultIpv4Gateway_printed hproperties hmetrics, discoverTunName_printed hrows hinterfaces⟩

section Witness

private def officeRoute : List (Text × Text) :=
  [("route to".toList, "default".toList), ("gateway".toList, "192.168.1.1".toList),
    ("interface".toList, "en0".toList)]

private def officeTable : List (List (Text × ℕ)) :=
  [[("default".toList, 12), ("192.168.1.1".toList, 8), ("UGScg".toList, 17), ("en0".toList, 7)]]

/-- The first of the two tunnels has no IPv4 address. -/
private def officeInterfaces : List Interface :=
  [⟨"utun0".toList, "flags=8051 mtu 1380".toList, ["inet6 fe80::1".toList]⟩,
    ⟨"utun5".toList, "flags=8051 mtu 1380".toList, ["inet 10.0.0.2 --> 10.0.0.1".toList]⟩]

theorem discovered_office :
    defaultIpv4Gateway (succeeded (printRoute officeRoute ["recvpipe sendpipe".toList])) =
        .ok "192.168.1.1".toList ∧
      discoverTunName (succeeded (printTable officeTable))
        (succeeded (printInterfaces officeInterfaces)) = .ok "utun5".toList := by
  have hroute : ∀ p ∈ officeRoute, IsProperty p := by
    simp only [officeRoute, List.forall_mem_cons]
    refine ⟨?_, ?_, ?_, fun _ hp => absurd hp List.not_mem_nil⟩
    all_goals exact ⟨⟨by decide, by decide, by decide⟩, by decide,
      ⟨by decide, by decide, by decide⟩⟩
  have hmetrics : ∀ line ∈ ["recvpipe sendpipe".toList], ':' ∉ line ∧ '\n' ∉ line := by
    intro line hline
    obtain rfl := List.mem_singleton.mp hline
    exact ⟨by decide, by decide⟩
  have htable : ∀ row ∈ officeTable, ∀ cell ∈ row, IsWord cell.1 := by
    simp only [officeTable, List.forall_mem_cons]
    refine ⟨⟨?_, ?_, ?_, ?_, fun _ hp => absurd hp List.not_mem_nil⟩, fun _ hp =>
      absurd hp List.not_mem_nil⟩
    all_goals exact isWord_of_all (by decide) (by decide)
  have hinterfaces : ∀ i ∈ officeInterfaces, i.IsPlain := by
    simp only [officeInterfaces, List.forall_mem_cons]
    refine ⟨?_, ?_, fun _ hi => absurd hi List.not_mem_nil⟩
    all_goals exact ⟨⟨by decide, by decide⟩, by decide, by decide, by decide⟩
  obtain ⟨-, -, hgateway, htun⟩ := discovered_printed hroute hmetrics htable hinterfaces
  constructor
  · rw [hgateway]
    decide
  · rw [htun]
    decide

end Witness

end NulConnect.Macos
