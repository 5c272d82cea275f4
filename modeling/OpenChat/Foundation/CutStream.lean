import Mathlib.Data.List.Infix

/-!
# Streams cut into chunks and read up to a stop symbol

A stream arrives in chunks whose borders the reader does not choose, and the
reader of a chunk sees only what stands before its first stop symbol.  The
results here say when the visible symbols survive: for one cut exactly when no
chunk hides a visible symbol behind a stop, and for all cuts at once exactly
when the stream itself hides none and no full chunk can lack a stop.
-/

namespace OpenChat.Foundation.CutStream

variable {α : Type*}

/-- A stream cut into non-empty chunks of at most `limit` symbols. -/
structure Cut (limit : Nat) (stream : List α) where
  chunks : List (List α)
  joined : chunks.flatten = stream
  nonempty : ∀ chunk ∈ chunks, chunk ≠ []
  bounded : ∀ chunk ∈ chunks, chunk.length ≤ limit

/-- What a reader who halts at the first stop symbol sees of a chunk. -/
def shown (stop : α → Bool) (chunk : List α) : List α :=
  chunk.takeWhile fun symbol => !stop symbol

/-- Some visible symbol stands behind a stop symbol. -/
def Hides (stop visible : α → Bool) (symbols : List α) : Prop :=
  ∃ halt symbol, stop halt = true ∧ visible symbol = true ∧
    [halt, symbol].Sublist symbols

/-- Some `limit` consecutive symbols contain no stop symbol. -/
def HasWindow (stop : α → Bool) (limit : Nat) (symbols : List α) : Prop :=
  ∃ window, window <:+: symbols ∧ window.length = limit ∧
    ∀ symbol ∈ window, stop symbol = false

section Hiding

variable {stop visible : α → Bool}

theorem Hides.mono {inner outer : List α} (hides : Hides stop visible inner)
    (sublist : inner.Sublist outer) : Hides stop visible outer := by
  obtain ⟨halt, symbol, isStop, isVisible, pair⟩ := hides
  exact ⟨halt, symbol, isStop, isVisible, pair.trans sublist⟩

theorem not_hides_nil : ¬Hides stop visible ([] : List α) := by
  rintro ⟨halt, symbol, _, _, pair⟩
  simp at pair

theorem hides_cons_iff (head : α) (tail : List α) :
    Hides stop visible (head :: tail) ↔
      Hides stop visible tail ∨
        (stop head = true ∧ ∃ symbol ∈ tail, visible symbol = true) := by
  constructor
  · rintro ⟨halt, symbol, isStop, isVisible, pair⟩
    cases pair with
    | cons _ later => exact .inl ⟨halt, symbol, isStop, isVisible, later⟩
    | cons_cons _ later =>
        exact .inr ⟨isStop, symbol, List.singleton_sublist.mp later,
          isVisible⟩
  · rintro (later | ⟨isStop, symbol, member, isVisible⟩)
    · exact later.mono (List.sublist_cons_self head tail)
    · exact ⟨head, symbol, isStop, isVisible,
        (List.singleton_sublist.mpr member).cons_cons head⟩

/-- What a chunk shows is all of its visible part exactly when it hides
nothing. -/
theorem filter_shown_eq_iff
    (visible_shows : ∀ symbol, visible symbol = true → stop symbol = false)
    (chunk : List α) :
    (shown stop chunk).filter visible = chunk.filter visible ↔
      ¬Hides stop visible chunk := by
  induction chunk with
  | nil => simp [shown, not_hides_nil]
  | cons head tail induction =>
      rw [hides_cons_iff]
      by_cases isStop : stop head = true
      · have notVisible : ¬visible head = true := by
          intro isVisible
          simp [visible_shows head isVisible] at isStop
        have hidesTail : Hides stop visible tail →
            ∃ symbol ∈ tail, visible symbol = true := by
          rintro ⟨halt, symbol, _, isVisible, pair⟩
          exact ⟨symbol, pair.subset (by simp), isVisible⟩
        simp only [shown, isStop, Bool.not_true, Bool.false_eq_true,
          not_false_eq_true, List.takeWhile_cons_of_neg, List.filter_nil,
          List.filter_cons_of_neg notVisible, true_and]
        rw [eq_comm, List.filter_eq_nil_iff]
        constructor
        · rintro noneVisible (hides | ⟨symbol, member, isVisible⟩)
          · obtain ⟨symbol, member, isVisible⟩ := hidesTail hides
            exact noneVisible symbol member isVisible
          · exact noneVisible symbol member isVisible
        · intro nothing symbol member isVisible
          exact nothing (.inr ⟨symbol, member, isVisible⟩)
      · have shownCons :
            shown stop (head :: tail) = head :: shown stop tail := by
          simp [shown, isStop]
        rw [shownCons]
        by_cases isVisible : visible head = true
        · simpa [isVisible, isStop] using induction
        · simpa [isVisible, isStop] using induction

theorem filter_shown_sublist (chunk : List α) :
    ((shown stop chunk).filter visible).Sublist (chunk.filter visible) :=
  (List.takeWhile_sublist _).filter _

private theorem sublists_eq_of_append_eq
    {first first' later later' : List α}
    (firstSub : first.Sublist first') (laterSub : later.Sublist later')
    (equality : first ++ later = first' ++ later') :
    first = first' ∧ later = later' := by
  have lengths := congrArg List.length equality
  simp only [List.length_append] at lengths
  have firstLe := firstSub.length_le
  have laterLe := laterSub.length_le
  exact ⟨firstSub.eq_of_length (by omega), laterSub.eq_of_length (by omega)⟩

private theorem flatten_filter_shown_sublist (chunks : List (List α)) :
    (chunks.map fun chunk =>
      (shown stop chunk).filter visible).flatten.Sublist
        (chunks.flatten.filter visible) := by
  induction chunks with
  | nil => simp
  | cons chunk chunks induction =>
      simp only [List.map_cons, List.flatten_cons, List.filter_append]
      exact (filter_shown_sublist chunk).append induction

/-- For one cut: the visible symbols all come through exactly when no chunk
hides one. -/
theorem flatten_filter_shown_eq_iff
    (visible_shows : ∀ symbol, visible symbol = true → stop symbol = false)
    (chunks : List (List α)) :
    (chunks.map fun chunk => (shown stop chunk).filter visible).flatten =
        chunks.flatten.filter visible ↔
      ∀ chunk ∈ chunks, ¬Hides stop visible chunk := by
  induction chunks with
  | nil => simp
  | cons chunk chunks induction =>
      simp only [List.map_cons, List.flatten_cons, List.filter_append,
        List.forall_mem_cons]
      rw [← filter_shown_eq_iff visible_shows, ← induction]
      constructor
      · exact sublists_eq_of_append_eq (filter_shown_sublist chunk)
          (flatten_filter_shown_sublist chunks)
      · rintro ⟨first, later⟩
        rw [first, later]

/-- A hidden symbol can be found directly behind the last stop before it. -/
theorem Hides.split {symbols : List α} (hides : Hides stop visible symbols) :
    ∃ before halt between symbol after,
      symbols = before ++ (halt :: (between ++ [symbol]) ++ after) ∧
        stop halt = true ∧ visible symbol = true ∧
        ∀ other ∈ between, stop other = false := by
  induction symbols with
  | nil => exact (not_hides_nil hides).elim
  | cons head tail induction =>
      by_cases inTail : Hides stop visible tail
      · obtain ⟨before, halt, between, symbol, after, rfl, rest⟩ :=
          induction inTail
        exact ⟨head :: before, halt, between, symbol, after, by simp, rest⟩
      · obtain impossible | ⟨isStop, symbol, member, isVisible⟩ :=
          (hides_cons_iff head tail).mp hides
        · exact (inTail impossible).elim
        · obtain ⟨between, after, rfl⟩ := List.append_of_mem member
          refine ⟨[], head, between, symbol, after, by simp, isStop,
            isVisible, ?_⟩
          intro other otherMember
          by_contra otherStop
          refine inTail ⟨other, symbol, by simpa using otherStop, isVisible,
            ?_⟩
          exact (List.singleton_sublist.mpr otherMember).append
            (List.singleton_sublist.mpr List.mem_cons_self)

end Hiding

section AllCuts

variable {stop visible : α → Bool} {limit : Nat}

def unitChunks (symbols : List α) : List (List α) :=
  symbols.map fun symbol => [symbol]

@[simp] theorem unitChunks_flatten (symbols : List α) :
    (unitChunks symbols).flatten = symbols := by
  induction symbols with
  | nil => rfl
  | cons head tail induction =>
      simpa [unitChunks] using induction

/-- Isolate one chunk; everything around it arrives symbol by symbol. -/
def isolate (positive : 0 < limit) (before chunk after : List α)
    (nonempty : chunk ≠ []) (bounded : chunk.length ≤ limit) :
    Cut limit (before ++ (chunk ++ after)) where
  chunks := unitChunks before ++ (chunk :: unitChunks after)
  joined := by simp
  nonempty := by
    intro other member
    rcases List.mem_append.mp member with inBefore | rest
    · obtain ⟨symbol, _, rfl⟩ := List.mem_map.mp inBefore
      simp
    · rcases List.mem_cons.mp rest with rfl | inAfter
      · exact nonempty
      · obtain ⟨symbol, _, rfl⟩ := List.mem_map.mp inAfter
        simp
  bounded := by
    intro other member
    rcases List.mem_append.mp member with inBefore | rest
    · obtain ⟨symbol, _, rfl⟩ := List.mem_map.mp inBefore
      exact positive
    · rcases List.mem_cons.mp rest with rfl | inAfter
      · exact bounded
      · obtain ⟨symbol, _, rfl⟩ := List.mem_map.mp inAfter
        exact positive

def unitCut (positive : 0 < limit) (stream : List α) : Cut limit stream where
  chunks := unitChunks stream
  joined := unitChunks_flatten stream
  nonempty := by simp [unitChunks]
  bounded := by
    intro chunk member
    obtain ⟨symbol, _, rfl⟩ := List.mem_map.mp member
    exact positive

theorem Cut.infix_of_mem {stream chunk : List α} (cut : Cut limit stream)
    (member : chunk ∈ cut.chunks) : chunk <:+: stream := by
  rw [← cut.joined]
  exact List.infix_of_mem_flatten member

theorem Cut.not_hides_of_shown
    (visible_shows : ∀ symbol, visible symbol = true → stop symbol = false)
    {stream : List α} {cut : Cut limit stream}
    (shownAll : (cut.chunks.map fun chunk =>
      (shown stop chunk).filter visible).flatten = stream.filter visible) :
    ∀ chunk ∈ cut.chunks, ¬Hides stop visible chunk := by
  apply (flatten_filter_shown_eq_iff visible_shows cut.chunks).mp
  rw [cut.joined]
  exact shownAll

/-- The reading of a cut stream: every full chunk has a stop, and the visible
symbols shown are the expected ones. -/
def ReadsAs (stop visible : α → Bool) {stream : List α}
    (expected : List α) (cut : Cut limit stream) : Prop :=
  (∀ chunk ∈ cut.chunks, chunk.length = limit →
    ∃ symbol ∈ chunk, stop symbol = true) ∧
  (cut.chunks.map fun chunk => (shown stop chunk).filter visible).flatten =
    expected

theorem not_hides_unit (symbol : α) : ¬Hides stop visible [symbol] := by
  rintro ⟨halt, other, _, _, pair⟩
  have := pair.length_le
  simp at this

private theorem expected_eq_of_forall
    (visible_shows : ∀ symbol, visible symbol = true → stop symbol = false)
    (positive : 0 < limit) {stream expected : List α}
    (reads : ∀ cut : Cut limit stream, ReadsAs stop visible expected cut) :
    stream.filter visible = expected := by
  have shownAll := (reads (unitCut positive stream)).2
  have clean : ∀ chunk ∈ (unitCut positive stream).chunks,
      ¬Hides stop visible chunk := by
    intro chunk member
    obtain ⟨symbol, _, rfl⟩ := List.mem_map.mp member
    exact not_hides_unit symbol
  rw [(flatten_filter_shown_eq_iff visible_shows _).mpr clean,
    Cut.joined] at shownAll
  exact shownAll

/-- For all cuts at once: full chunks never lack a stop exactly when the
stream has no window of their length without one. -/
theorem forall_full_stops_iff (positive : 0 < limit) (stream : List α) :
    (∀ cut : Cut limit stream, ∀ chunk ∈ cut.chunks, chunk.length = limit →
      ∃ symbol ∈ chunk, stop symbol = true) ↔
        ¬HasWindow stop limit stream := by
  constructor
  · rintro stops ⟨window, ⟨before, after, rfl⟩, length, free⟩
    have nonempty : window ≠ [] := by
      intro empty
      simp [empty] at length
      omega
    rw [List.append_assoc] at stops
    obtain ⟨symbol, member, isStop⟩ := stops
      (isolate positive before window after nonempty length.le) window
      (by simp [isolate]) length
    simp [free symbol member] at isStop
  · intro noWindow cut chunk member length
    by_contra lacks
    refine noWindow ⟨chunk, cut.infix_of_mem member, length, ?_⟩
    simpa using lacks

private theorem no_window_of_forall
    (positive : 0 < limit) {stream expected : List α}
    (reads : ∀ cut : Cut limit stream, ReadsAs stop visible expected cut) :
    ¬HasWindow stop limit stream :=
  (forall_full_stops_iff positive stream).mp fun cut => (reads cut).1

private theorem not_hides_of_forall
    (visible_shows : ∀ symbol, visible symbol = true → stop symbol = false)
    (positive : 0 < limit) {stream expected : List α}
    (reads : ∀ cut : Cut limit stream, ReadsAs stop visible expected cut) :
    ¬Hides stop visible stream := by
  intro hides
  have noWindow := no_window_of_forall positive reads
  have total := expected_eq_of_forall visible_shows positive reads
  obtain ⟨before, halt, between, symbol, after, rfl, isStop, isVisible,
    free⟩ := hides.split
  by_cases long : limit ≤ (between ++ [symbol]).length
  · apply noWindow
    refine ⟨(between ++ [symbol]).take limit, ?_,
      List.length_take_of_le long, ?_⟩
    · refine (List.take_prefix limit _).isInfix.trans ?_
      exact ⟨before ++ [halt], after, by simp⟩
    · intro other member
      rcases List.mem_append.mp (List.mem_of_mem_take member) with
        inBetween | isSymbol
      · exact free other inBetween
      · obtain rfl := List.mem_singleton.mp isSymbol
        exact visible_shows other isVisible
  · have fits : (halt :: (between ++ [symbol])).length ≤ limit := by
      rw [List.length_cons]
      omega
    have shownAll := (reads (isolate positive before
      (halt :: (between ++ [symbol])) after (List.cons_ne_nil _ _) fits)).2
    refine Cut.not_hides_of_shown visible_shows (shownAll.trans total.symm)
      (halt :: (between ++ [symbol])) (by simp [isolate])
      ⟨halt, symbol, isStop, isVisible, ?_⟩
    exact (List.singleton_sublist.mpr (by simp)).cons_cons halt

/-- For all cuts at once: every cut reads as expected exactly when the stream
hides nothing, has no window without a stop, and has the expected visible
symbols. -/
theorem forall_readsAs_iff
    (visible_shows : ∀ symbol, visible symbol = true → stop symbol = false)
    (positive : 0 < limit) (stream expected : List α) :
    (∀ cut : Cut limit stream, ReadsAs stop visible expected cut) ↔
      ¬Hides stop visible stream ∧ ¬HasWindow stop limit stream ∧
        stream.filter visible = expected := by
  constructor
  · intro reads
    exact ⟨not_hides_of_forall visible_shows positive reads,
      no_window_of_forall positive reads,
      expected_eq_of_forall visible_shows positive reads⟩
  · rintro ⟨clean, noWindow, total⟩ cut
    constructor
    · intro chunk member full
      by_contra free
      refine noWindow ⟨chunk, cut.infix_of_mem member, full, ?_⟩
      intro symbol symbolMember
      by_contra isStop
      exact free ⟨symbol, symbolMember, by simpa using isStop⟩
    · rw [(flatten_filter_shown_eq_iff visible_shows _).mpr, cut.joined,
        total]
      intro chunk member hides
      exact clean (hides.mono (cut.infix_of_mem member).sublist)

theorem hides_first_stop_iff {front rest : List α} {halt : α}
    (free : ∀ symbol ∈ front, stop symbol = false)
    (isStop : stop halt = true) :
    Hides stop visible (front ++ halt :: rest) ↔
      ∃ symbol ∈ rest, visible symbol = true := by
  induction front with
  | nil =>
      rw [List.nil_append, hides_cons_iff]
      constructor
      · intro hides
        rcases hides with later | first
        · obtain ⟨other, symbol, _, isVisible, pair⟩ := later
          exact ⟨symbol, pair.subset (by simp), isVisible⟩
        · exact first.2
      · intro inRest
        exact .inr ⟨isStop, inRest⟩
  | cons head front induction =>
      have headFree := free head (.head _)
      rw [List.cons_append, hides_cons_iff,
        induction (fun symbol member => free symbol (.tail _ member))]
      simp [headFree]

theorem hasWindow_free_iff {symbols : List α}
    (free : ∀ symbol ∈ symbols, stop symbol = false) :
    HasWindow stop limit symbols ↔ limit ≤ symbols.length := by
  constructor
  · intro has
    obtain ⟨window, isInfix, length, _⟩ := has
    rw [← length]
    exact isInfix.length_le
  · intro long
    refine ⟨symbols.take limit, (List.take_prefix limit symbols).isInfix,
      List.length_take_of_le long, ?_⟩
    intro symbol member
    exact free symbol (List.mem_of_mem_take member)

theorem HasWindow.mono {inner outer : List α}
    (has : HasWindow stop limit inner) (isInfix : inner <:+: outer) :
    HasWindow stop limit outer := by
  obtain ⟨window, inside, rest⟩ := has
  exact ⟨window, inside.trans isInfix, rest⟩

theorem hasWindow_stop_iff (positive : 0 < limit) {front rest : List α}
    {halt : α} (isStop : stop halt = true) :
    HasWindow stop limit (front ++ halt :: rest) ↔
      HasWindow stop limit front ∨ HasWindow stop limit rest := by
  constructor
  · intro has
    obtain ⟨window, ⟨before, after, split⟩, length, free⟩ := has
    have notInWindow : halt ∉ window := by
      intro member
      simp [free halt member] at isStop
    have nonempty : window ≠ [] := by
      intro empty
      simp [empty] at length
      omega
    rw [List.append_assoc] at split
    rcases List.append_eq_append_iff.mp split with
      ⟨middle, front_eq, later⟩ | ⟨middle, before_eq, later⟩
    · rcases List.append_eq_append_iff.mp later with
        ⟨inner, middle_eq, _⟩ | ⟨inner, window_eq, halt_eq⟩
      · refine .inl ⟨window, ⟨before, inner, ?_⟩, length, free⟩
        rw [front_eq, middle_eq, List.append_assoc]
      · cases inner with
        | nil =>
            refine .inl ⟨window, ⟨before, [], ?_⟩, length, free⟩
            rw [front_eq, window_eq, List.append_nil, List.append_nil]
        | cons first inner =>
            obtain ⟨rfl, _⟩ := List.cons.inj halt_eq
            exact (notInWindow (by simp [window_eq])).elim
    · cases middle with
      | nil =>
          cases window with
          | nil => exact (nonempty rfl).elim
          | cons first window =>
              obtain ⟨rfl, _⟩ := List.cons.inj later
              exact (notInWindow (by simp)).elim
      | cons first middle =>
          obtain ⟨_, rest_eq⟩ := List.cons.inj later
          refine .inr ⟨window, ⟨middle, after, ?_⟩, length, free⟩
          exact (List.append_assoc _ _ _).trans rest_eq.symm
  · intro either
    rcases either with inFront | inRest
    · exact inFront.mono (List.prefix_append front _).isInfix
    · exact inRest.mono ⟨front ++ [halt], [], by simp⟩

/-- A stream with a first stop: all that counts is visible in front of it. -/
theorem forall_readsAs_first_stop_iff
    (visible_shows : ∀ symbol, visible symbol = true → stop symbol = false)
    (positive : 0 < limit) {front rest expected : List α} {halt : α}
    (free : ∀ symbol ∈ front, stop symbol = false)
    (isStop : stop halt = true) :
    (∀ cut : Cut limit (front ++ halt :: rest),
        ReadsAs stop visible expected cut) ↔
      front.length < limit ∧ (∀ symbol ∈ rest, visible symbol = false) ∧
        ¬HasWindow stop limit rest ∧ front.filter visible = expected := by
  have notVisible : visible halt = false := by
    by_contra isVisible
    simp [visible_shows halt (by simpa using isVisible)] at isStop
  rw [forall_readsAs_iff visible_shows positive,
    hides_first_stop_iff free isStop, hasWindow_stop_iff positive isStop,
    hasWindow_free_iff free, List.filter_append, List.filter_cons]
  simp only [notVisible, Bool.false_eq_true, if_false, not_exists, not_and,
    not_or, Nat.not_le, Bool.not_eq_true]
  constructor
  · intro facts
    obtain ⟨clean, ⟨short, noWindow⟩, total⟩ := facts
    have nothing : rest.filter visible = [] := by
      rw [List.filter_eq_nil_iff]
      intro symbol member
      simp [clean symbol member]
    rw [nothing, List.append_nil] at total
    exact ⟨short, clean, noWindow, total⟩
  · intro facts
    obtain ⟨short, clean, noWindow, total⟩ := facts
    have nothing : rest.filter visible = [] := by
      rw [List.filter_eq_nil_iff]
      intro symbol member
      simp [clean symbol member]
    refine ⟨clean, ⟨short, noWindow⟩, ?_⟩
    rw [nothing, List.append_nil]
    exact total

private theorem free_or_first_stop (stop : α → Bool) (symbols : List α) :
    (∀ symbol ∈ symbols, stop symbol = false) ∨
      ∃ front halt rest, symbols = front ++ halt :: rest ∧
        (∀ symbol ∈ front, stop symbol = false) ∧ stop halt = true := by
  induction symbols with
  | nil => exact .inl (by simp)
  | cons head tail induction =>
      cases isStop : stop head with
      | true => exact .inr ⟨[], head, tail, rfl, by simp, isStop⟩
      | false =>
          rcases induction with free | ⟨front, halt, rest, rfl, free, halts⟩
          · exact .inl (List.forall_mem_cons.mpr ⟨isStop, free⟩)
          · exact .inr ⟨head :: front, halt, rest, rfl,
              List.forall_mem_cons.mpr ⟨isStop, free⟩, halts⟩

/-- What reads the same for all cuts is shorter than a chunk may be. -/
theorem length_lt_of_forall_readsAs
    (visible_shows : ∀ symbol, visible symbol = true → stop symbol = false)
    (positive : 0 < limit) {stream expected : List α}
    (reads : ∀ cut : Cut limit stream, ReadsAs stop visible expected cut) :
    expected.length < limit := by
  rcases free_or_first_stop stop stream with
    free | ⟨front, halt, rest, rfl, free, isStop⟩
  · obtain ⟨_, noWindow, total⟩ :=
      (forall_readsAs_iff visible_shows positive stream expected).mp reads
    rw [hasWindow_free_iff free, Nat.not_le] at noWindow
    rw [← total]
    exact Nat.lt_of_le_of_lt (List.length_filter_le _ _) noWindow
  · obtain ⟨short, _, _, total⟩ := (forall_readsAs_first_stop_iff
      visible_shows positive free isStop).mp reads
    rw [← total]
    exact Nat.lt_of_le_of_lt (List.length_filter_le _ _) short

theorem not_hasWindow_nil (positive : 0 < limit) :
    ¬HasWindow stop limit ([] : List α) := by
  rw [hasWindow_free_iff (by simp), List.length_nil]
  omega

theorem not_hasWindow_blocks (positive : 0 < limit) {halt : α}
    (isStop : stop halt = true) {block : List α}
    (blockFree : ¬HasWindow stop limit block) (count : Nat) {front : List α}
    (frontFree : ¬HasWindow stop limit front) :
    ¬HasWindow stop limit
      (front ++ (List.replicate count (halt :: block)).flatten) := by
  induction count generalizing front with
  | zero => simpa using frontFree
  | succ count induction =>
      rw [List.replicate_succ, List.flatten_cons, List.cons_append,
        hasWindow_stop_iff positive isStop, not_or]
      exact ⟨frontFree, induction blockFree⟩

end AllCuts

end OpenChat.Foundation.CutStream
