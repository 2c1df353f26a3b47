import AiQuant.CopyTrading.LeaderDirectory
import Mathlib.Data.Finset.Lattice.Lemmas
import Mathlib.Data.List.Pairwise
import Mathlib.Data.List.Perm.Subperm

/-! Lookups in a directory that does not change while its pages are read.  The server may give
fewer rows than it is asked for; the whole directory is counted in pages of the size that came,
the lookups count in pages of one hundred. -/
namespace AiQuant.CopyTrading
open AiQuant.Lib

/-- The rankings list the same leaders, each of them once. -/
structure StaticDirectory where
  ranking : RankingType → List ListRow
  pageCap : ℕ
  pageCap_pos : 1 ≤ pageCap
  pageCap_le : pageCap ≤ 100
  ranking_perm : ∀ dataType, (ranking dataType).Perm (ranking .roi)
  ids_distinct : (ranking .roi).Pairwise fun first second =>
    ∀ leaderId, first.leaderId? = some leaderId → second.leaderId? ≠ some leaderId

namespace StaticDirectory

variable (directory : StaticDirectory)

def rows : List ListRow := directory.ranking .roi

def page (dataType : RankingType) (pageNumber pageSize : ℕ) : List ListRow :=
  ((directory.ranking dataType).drop (min pageSize directory.pageCap * (pageNumber - 1))).take
    (min pageSize directory.pageCap)

def endpoint : LeaderEndpoint := fun _ dataType pageNumber pageSize =>
  .ok (directory.page dataType pageNumber pageSize, directory.rows.length)

def pageCount : ℕ := (directory.rows.length + directory.pageCap - 1) / directory.pageCap

def pagesRead : ℕ := max 1 ((directory.rows.length + 99) / 100)

def rowsRead : List ListRow := directory.rows.take (directory.pageCap * directory.pagesRead)

end StaticDirectory

section Rows

variable {folding : TextFolding} {row : ListRow} {leader : LeaderSnapshot} {leaderId : String}

theorem requiredString_eq_ok {value : JsonText} {key text : String}
    (hok : requiredString folding value key = .ok text) : value = .text text := by
  cases value with
  | other => cases hok
  | text value =>
    rw [requiredString] at hok
    split_ifs at hok
    rw [Except.ok.inj hok]

theorem fromApi_eq_ok {doc : LeaderRow} (hl : LeaderSnapshot.fromApi folding doc = .ok leader) :
    doc.leadPortfolioId = .text leader.leadPortfolioId ∧
      matchesLeaderId leader.leadPortfolioId = true ∧
      doc.nickname = .text leader.nickname := by
  simp only [LeaderSnapshot.fromApi, bind_eq_ok_iff] at hl
  obtain ⟨leaderId, hid, nickname, hn, portfolioType, -, sharpRatio, -, roi, -, pnl, -, aum, -,
    mdd, -, winRate, -, current, -, maximum, -, start, -, hr⟩ := hl
  obtain rfl := Except.ok.inj hr
  simp only [leaderIdField, bind_eq_ok_iff] at hid
  obtain ⟨shown, hsh, hm⟩ := hid
  split_ifs at hm with hp
  obtain rfl := Except.ok.inj hm
  simp only [nicknameField, bind_eq_ok_iff] at hn
  obtain ⟨text, ht, hs⟩ := hn
  split_ifs at hs
  obtain rfl := Except.ok.inj hs
  refine ⟨?_, hp, requiredString_eq_ok ht⟩
  have hj := requiredString_eq_ok hsh
  cases hv : doc.leadPortfolioId with
  | text value =>
    rw [hv] at hj
    rw [JsonText.text.inj hj]
  | other value =>
    rw [hv] at hj
    cases hj

theorem leaderId?_of_leader (hl : row.leader folding = .ok leader) :
    row.leaderId? = some leader.leadPortfolioId := by
  cases row with
  | other => cases hl
  | mapping doc =>
    obtain ⟨hid, hp, -⟩ := fromApi_eq_ok hl
    rw [ListRow.leaderId?, hid]
    exact if_pos hp

theorem leaderWithId_append (first second : List ListRow) :
    leaderWithId folding leaderId (first ++ second) =
      match leaderWithId folding leaderId first with
      | .ok none => leaderWithId folding leaderId second
      | found => found := by
  induction first with
  | nil => rfl
  | cons row rest ih =>
    cases row with
    | other => exact ih
    | mapping doc =>
      rw [List.cons_append, leaderWithId, leaderWithId]
      split_ifs
      · exact ih
      · cases LeaderSnapshot.fromApi folding doc <;> rfl

theorem leaderWithId_of_mem {rows : List ListRow} (hrow : row ∈ rows)
    (hid : row.leaderId? = some leaderId)
    (hon : ∀ twin ∈ rows, twin.leaderId? = some leaderId → twin = row) :
    leaderWithId folding leaderId rows = match row.leader folding with
      | .ok leader => .ok (some leader)
      | .error _ => .error "COPY_LEADER_LOOKUP_INVALID" := by
  have hs : ∀ doc : LeaderRow, (ListRow.mapping doc).leaderId? = some leaderId →
      matchesLeaderId leaderId = true ∧ doc.leadPortfolioId.shown = leaderId := by
    intro doc hd
    rw [ListRow.leaderId?] at hd
    split_ifs at hd with hp
    obtain rfl := Option.some.inj hd
    exact ⟨hp, rfl⟩
  induction rows with
  | nil => exact absurd hrow List.not_mem_nil
  | cons first rest ih =>
    obtain ⟨hf, hr⟩ := List.forall_mem_cons.mp hon
    by_cases hsa : first.leaderId? = some leaderId
    · obtain rfl := hf hsa
      cases first with
      | other => cases hsa
      | mapping doc =>
        rw [leaderWithId, if_neg (not_not.mpr (hs doc hsa).2)]
        rfl
    · have hl : row ∈ rest := by
        rcases List.mem_cons.mp hrow with rfl | hl
        · exact absurd hid hsa
        · exact hl
      cases first with
      | other => exact ih hl hr
      | mapping doc =>
        have ho : doc.leadPortfolioId.shown ≠ leaderId := by
          intro he
          cases row with
          | other => cases hid
          | mapping found =>
            exact hsa (by rw [ListRow.leaderId?, he, if_pos (hs found hid).1])
        rw [leaderWithId, if_pos ho]
        exact ih hl hr

theorem leaderWithId_eq_some {rows : List ListRow}
    (hf : leaderWithId folding leaderId rows = .ok (some leader)) :
    leader.leadPortfolioId = leaderId ∧ ∃ row ∈ rows, row.leader folding = .ok leader := by
  induction rows with
  | nil => cases hf
  | cons first rest ih =>
    have hl (hr : leaderWithId folding leaderId rest = .ok (some leader)) :
        leader.leadPortfolioId = leaderId ∧
          ∃ row ∈ first :: rest, row.leader folding = .ok leader := by
      obtain ⟨hid, row, hrow, hle⟩ := ih hr
      exact ⟨hid, row, List.mem_cons_of_mem first hrow, hle⟩
    cases first with
    | other => exact hl hf
    | mapping doc =>
      rw [leaderWithId] at hf
      split_ifs at hf with hs
      · exact hl hf
      · cases hp : LeaderSnapshot.fromApi folding doc with
        | error reason =>
          rw [hp] at hf
          cases hf
        | ok parsed =>
          rw [hp] at hf
          obtain rfl : parsed = leader := Option.some.inj (Except.ok.inj hf)
          refine ⟨?_, .mapping doc, List.mem_cons_self, hp⟩
          rw [(fromApi_eq_ok hp).1] at hs
          exact not_not.mp hs

def validLeaders (folding : TextFolding) (rows : List ListRow) : List LeaderSnapshot :=
  rows.filterMap fun row => (row.leader folding).toOption

theorem toOption_eq_some_iff {result : Except String LeaderSnapshot} :
    result.toOption = some leader ↔ result = .ok leader := by
  cases result with
  | error reason => simp [Except.toOption]
  | ok found => simp [Except.toOption]

theorem mem_validLeaders {rows : List ListRow} :
    leader ∈ validLeaders folding rows ↔ ∃ row ∈ rows, row.leader folding = .ok leader := by
  rw [validLeaders, List.mem_filterMap]
  simp only [toOption_eq_some_iff]

theorem validLeaders_append (first second : List ListRow) : validLeaders folding (first ++ second) =
      validLeaders folding first ++ validLeaders folding second :=
  List.filterMap_append

theorem length_validLeaders_add (rows : List ListRow) :
    (validLeaders folding rows).length + (rows.filterMap (rowReason? folding)).length =
      rows.length := by
  induction rows with
  | nil => rfl
  | cons row rest ih =>
    cases hl : row.leader folding with
    | ok leader => simp [validLeaders, rowReason?, hl, Except.toOption] at ih ⊢; omega
    | error reason => simp [validLeaders, rowReason?, hl, Except.toOption] at ih ⊢; omega

theorem rawCount_leaderPage (rows : List ListRow) (total : ℕ) :
    (leaderPage folding rows total).rawCount = rows.length :=
  length_validLeaders_add rows

end Rows

section Snapshot

variable {folding : TextFolding}

theorem setLeader_of_forall_ne {leaders : List LeaderSnapshot} {leader : LeaderSnapshot}
    (hn : ∀ other ∈ leaders, other.leadPortfolioId ≠ leader.leadPortfolioId) :
    setLeader leaders leader = leaders ++ [leader] := by
  rw [setLeader, if_neg]
  simpa [List.any_eq_true] using hn

theorem foldl_setLeader (first second : List LeaderSnapshot)
    (hd : ((first ++ second).map (·.leadPortfolioId)).Nodup) :
    second.foldl setLeader first = first ++ second := by
  induction second generalizing first with
  | nil => rw [List.append_nil, List.foldl_nil]
  | cons leader rest ih =>
    have hn : ∀ other ∈ first, other.leadPortfolioId ≠ leader.leadPortfolioId := by
      intro other ho hs
      rw [List.map_append, List.nodup_append] at hd
      exact hd.2.2 _ (List.mem_map_of_mem ho) _ (by simp) hs
    rw [List.foldl_cons, setLeader_of_forall_ne hn, ih]
    · rw [List.append_assoc, List.singleton_append]
    · rwa [List.append_assoc, List.singleton_append]

theorem merge_leaderPage {first second : List ListRow} (total : ℕ)
    (hd : ((validLeaders folding (first ++ second)).map (·.leadPortfolioId)).Nodup) :
    DirectoryState.merge ⟨leaderPage folding first total, first.length⟩
        (leaderPage folding second total) =
      ⟨leaderPage folding (first ++ second) total, (first ++ second).length⟩ := by
  have hl : (leaderPage folding second total).leaders.foldl setLeader
      (leaderPage folding first total).leaders = validLeaders folding (first ++ second) := by
    rw [validLeaders_append] at hd ⊢
    exact foldl_setLeader _ _ hd
  rw [DirectoryState.merge, hl, rawCount_leaderPage, List.length_append]
  simp only [leaderPage, validLeaders, List.filterMap_append, List.length_append,
    List.toFinset_append]

end Snapshot

namespace StaticDirectory

variable {directory : StaticDirectory} {folding : TextFolding} {timeRange : String}

theorem row_of_id {first second : ListRow} {leaderId : String} (hf : first ∈ directory.rows)
    (hs : second ∈ directory.rows) (hid : first.leaderId? = some leaderId)
    (hsa : second.leaderId? = some leaderId) : first = second := by
  by_contra hne
  have ha : directory.rows.Pairwise fun first second =>
      first.leaderId? = some leaderId → second.leaderId? ≠ some leaderId :=
    directory.ids_distinct.imp fun hd => hd leaderId
  have : Std.Symm fun first second : ListRow =>
      first.leaderId? = some leaderId → second.leaderId? ≠ some leaderId :=
    ⟨fun _ _ ha hs hf => ha hf hs⟩
  exact ha.forall hf hs hne hid hsa

theorem row_of_leader {first second : ListRow} {leader found : LeaderSnapshot}
    (hfi : first ∈ directory.rows) (hs : second ∈ directory.rows)
    (hl : first.leader folding = .ok leader) (hf : second.leader folding = .ok found)
    (hid : leader.leadPortfolioId = found.leadPortfolioId) : first = second := by
  apply row_of_id hfi hs (leaderId?_of_leader hl)
  rw [hid]
  exact leaderId?_of_leader hf

theorem ids_nodup (dataType : RankingType) :
    ((validLeaders folding (directory.ranking dataType)).map (·.leadPortfolioId)).Nodup := by
  have hp := ((directory.ranking_perm dataType).filterMap
    fun row => (row.leader folding).toOption).map (·.leadPortfolioId)
  apply hp.nodup_iff.mpr
  rw [List.Nodup, List.pairwise_map, List.pairwise_filterMap]
  apply directory.ids_distinct.imp
  intro first second hd leader hl found hf hs
  rw [toOption_eq_some_iff] at hl hf
  apply hd _ (leaderId?_of_leader hl)
  rw [hs]
  exact leaderId?_of_leader hf

theorem take_ids_nodup (dataType : RankingType) (count : ℕ) :
    ((validLeaders folding ((directory.ranking dataType).take count)).map
      (·.leadPortfolioId)).Nodup :=
  List.Nodup.sublist (((List.take_sublist count _).filterMap _).map _) (ids_nodup dataType)

theorem length_ranking (dataType : RankingType) :
    (directory.ranking dataType).length = directory.rows.length :=
  (directory.ranking_perm dataType).length_eq

theorem page_hundred (dataType : RankingType) (pageNumber : ℕ) :
    directory.page dataType pageNumber 100 =
      ((directory.ranking dataType).drop (directory.pageCap * (pageNumber - 1))).take
        directory.pageCap := by
  rw [page, min_eq_right directory.pageCap_le]

theorem take_append_page (dataType : RankingType) (pagesSeen : ℕ) :
    (directory.ranking dataType).take (directory.pageCap * pagesSeen) ++
        directory.page dataType (pagesSeen + 1) 100 =
      (directory.ranking dataType).take (directory.pageCap * (pagesSeen + 1)) := by
  rw [page_hundred, Nat.add_sub_cancel, Nat.mul_succ, List.take_add]

theorem pageCount_le_iff {pages : ℕ} :
    directory.pageCount ≤ pages ↔ directory.rows.length ≤ directory.pageCap * pages := by
  have hp := directory.pageCap_pos
  rw [pageCount, ← Nat.lt_succ_iff, Nat.div_lt_iff_lt_mul (by omega), Nat.succ_mul,
    Nat.mul_comm directory.pageCap]
  omega

theorem requiredPages_eq_pageCount :
    requiredPages directory.rows.length (min directory.pageCap directory.rows.length) =
      directory.pageCount := by
  have hp := directory.pageCap_pos
  rw [requiredPages]
  split_ifs with he
  · exact (Nat.le_zero.mp (pageCount_le_iff.mpr (by omega))).symm
  · rcases Nat.le_total directory.pageCap directory.rows.length with hf | hs
    · rw [min_eq_left hf, pageCount]
    · -- One page that the server could have made longer.
      rw [min_eq_right hs]
      have ho : (directory.rows.length + directory.rows.length - 1) / directory.rows.length = 1 :=
        Nat.div_eq_of_lt_le (by omega) (by omega)
      have hle : directory.pageCount ≤ 1 := pageCount_le_iff.mpr (by omega)
      have hso : ¬ directory.pageCount ≤ 0 := by
        rw [pageCount_le_iff]
        omega
      omega

theorem listLeaders_eq {pageNumber : ℕ} (ht : timeRange ∈ timeRanges) (hf : 1 ≤ pageNumber)
    (hl : pageNumber ≤ 10000) (dataType : RankingType) :
    listLeaders folding directory.endpoint pageNumber 100 timeRange dataType =
      .ok (leaderPage folding (directory.page dataType pageNumber 100) directory.rows.length) := by
  rw [listLeaders, if_neg (by omega), if_neg (not_not.mpr ht)]
  rfl

theorem directoryLoop_eq {maximumPages : ℕ} (ht : timeRange ∈ timeRanges)
    (hl : maximumPages ≤ 1000) (hc : directory.pageCount ≤ maximumPages)
    (dataType : RankingType) {left pagesSeen : ℕ} (hle : directory.pageCount ≤ left + pagesSeen) :
    directoryLoop folding directory.endpoint timeRange dataType maximumPages
        (min directory.pageCap directory.rows.length) left (pagesSeen + 1)
        ⟨leaderPage folding ((directory.ranking dataType).take (directory.pageCap * pagesSeen))
            directory.rows.length,
          ((directory.ranking dataType).take (directory.pageCap * pagesSeen)).length⟩ =
      .ok ⟨leaderPage folding (directory.ranking dataType) directory.rows.length,
        (directory.ranking dataType).length⟩ := by
  have hw {pages : ℕ} (hp : directory.pageCount ≤ pages) :
      (directory.ranking dataType).take (directory.pageCap * pages) =
        directory.ranking dataType := by
    apply List.take_of_length_le
    rw [length_ranking]
    exact pageCount_le_iff.mp hp
  induction left generalizing pagesSeen with
  | zero =>
    rw [directoryLoop, hw (by omega)]
  | succ left ih =>
    have hr : requiredPages (leaderPage folding ((directory.ranking dataType).take
        (directory.pageCap * pagesSeen)) directory.rows.length).total
          (min directory.pageCap directory.rows.length) = directory.pageCount :=
      requiredPages_eq_pageCount
    rw [directoryLoop]
    simp only [hr]
    split_ifs with hd
    · rw [hw (by omega)]
    · have hm : directory.pageCap * pagesSeen < directory.rows.length := by
        by_contra hnot
        have := pageCount_le_iff.mpr (not_lt.mp hnot)
        omega
      have hn : (leaderPage folding (directory.page dataType (pagesSeen + 1) 100)
          directory.rows.length).rawCount ≠ 0 := by
        have hpos := directory.pageCap_pos
        rw [rawCount_leaderPage, page_hundred, Nat.add_sub_cancel, List.length_take,
          List.length_drop, length_ranking]
        omega
      have hp : ¬ maximumPages < requiredPages (leaderPage folding
          (directory.page dataType (pagesSeen + 1) 100) directory.rows.length).total
            (min directory.pageCap directory.rows.length) := by
        rw [leaderPage]
        exact not_lt.mpr (requiredPages_eq_pageCount.trans_le hc)
      rw [listLeaders_eq ht (by omega) (by omega)]
      dsimp only
      rw [if_neg hn, if_neg hp, merge_leaderPage, take_append_page]
      · exact ih (by omega)
      · rw [take_append_page]
        exact take_ids_nodup dataType _

theorem listAllLeadersSnapshot_eq {maximumPages : ℕ} (hti : timeRange ∈ timeRanges)
    (hl : maximumPages ≤ 1000) (hc : directory.pageCount ≤ maximumPages) (dataType : RankingType) :
    listAllLeadersSnapshot folding directory.endpoint timeRange dataType maximumPages =
      .ok (leaderPage folding (directory.ranking dataType) directory.rows.length) := by
  have hpos := directory.pageCap_pos
  have hp : directory.page dataType 1 100 =
      (directory.ranking dataType).take (directory.pageCap * 1) := by
    rw [page_hundred, Nat.sub_self, Nat.mul_zero, List.drop_zero, Nat.mul_one]
  have hs : (directory.page dataType 1 100).length =
      min directory.pageCap directory.rows.length := by
    rw [hp, List.length_take, length_ranking, Nat.mul_one]
  have hr : (leaderPage folding (directory.page dataType 1 100)
      directory.rows.length).rawCount = min directory.pageCap directory.rows.length :=
    (rawCount_leaderPage _ _).trans hs
  have hf : { leaderPage folding (directory.page dataType 1 100) directory.rows.length with
      leaders := (leaderPage folding (directory.page dataType 1 100)
        directory.rows.length).leaders.foldl setLeader [] } =
      leaderPage folding (directory.page dataType 1 100) directory.rows.length := by
    rw [foldl_setLeader, List.nil_append]
    rw [List.nil_append, hp]
    exact take_ids_nodup dataType _
  have hlo := @directoryLoop_eq directory folding timeRange maximumPages hti hl hc
    dataType maximumPages 1 (by omega)
  rw [← hp, hs] at hlo
  rw [listAllLeadersSnapshot, listLeaders_eq hti (by omega) (by omega)]
  dsimp only
  rw [hf, hr, if_neg, if_neg, hlo]
  · dsimp only
    rw [if_neg]
    rw [length_ranking, leaderPage]
    exact lt_irrefl _
  · exact not_lt.mpr (requiredPages_eq_pageCount.trans_le hc)
  · rintro ⟨ht : 0 < directory.rows.length, hz⟩
    omega

def pagesFrom (directory : StaticDirectory) (left pageNumber : ℕ) : ℕ :=
  min left (max 1 ((directory.rows.length + 99) / 100 - (pageNumber - 1)))

def window (directory : StaticDirectory) (left pageNumber : ℕ) : List ListRow :=
  (directory.rows.drop (directory.pageCap * (pageNumber - 1))).take
    (directory.pageCap * directory.pagesFrom left pageNumber)

theorem window_last {left pageNumber : ℕ} (hf : 1 ≤ pageNumber)
    (hl : directory.rows.length ≤ pageNumber * 100) :
    directory.window (left + 1) pageNumber = directory.page .roi pageNumber 100 := by
  have ho : directory.pagesFrom (left + 1) pageNumber = 1 := by
    rw [pagesFrom]
    omega
  rw [window, ho, Nat.mul_one, page_hundred]
  rfl

theorem window_more {left pageNumber : ℕ} (hf : 1 ≤ pageNumber)
    (hm : ¬ directory.rows.length ≤ pageNumber * 100) : directory.window (left + 1) pageNumber =
      directory.page .roi pageNumber 100 ++ directory.window left (pageNumber + 1) := by
  have hp : directory.pagesFrom (left + 1) pageNumber =
      directory.pagesFrom left (pageNumber + 1) + 1 := by
    rw [pagesFrom, pagesFrom]
    omega
  have hn : directory.pageCap * (pageNumber - 1) + directory.pageCap =
      directory.pageCap * (pageNumber + 1 - 1) := by
    rw [← Nat.mul_succ]
    congr 1
    omega
  rw [window, hp, Nat.mul_succ, Nat.add_comm, List.take_add, List.drop_drop, hn, page_hundred]
  rfl

theorem window_first {maximumPages : ℕ} (ho : 1 ≤ maximumPages)
    (hc : directory.pageCount ≤ maximumPages) :
    directory.window maximumPages 1 = directory.rowsRead := by
  have hr := pageCount_le_iff.mp hc
  have hcap := Nat.mul_le_mul_right maximumPages directory.pageCap_le
  have hp : directory.pagesFrom maximumPages 1 = directory.pagesRead := by
    rw [pagesFrom, pagesRead]
    omega
  rw [window, hp, Nat.sub_self, Nat.mul_zero, List.drop_zero, rowsRead]

/-- The rows that `find_leader` reads. -/
def lookupRows (directory : StaticDirectory) : List ListRow :=
  fastLeaderLookupRankings.flatMap (directory.page · 1 100) ++ directory.rowsRead

theorem mem_rows_of_mem_page {dataType : RankingType} {pageNumber pageSize : ℕ} {row : ListRow}
    (hr : row ∈ directory.page dataType pageNumber pageSize) : row ∈ directory.rows :=
  (directory.ranking_perm dataType).mem_iff.mp (List.mem_of_mem_drop (List.mem_of_mem_take hr))

theorem mem_rows_of_mem_lookupRows {row : ListRow} (hrow : row ∈ directory.lookupRows) :
    row ∈ directory.rows := by
  rcases List.mem_append.mp hrow with hf | hr
  · obtain ⟨dataType, -, hp⟩ := List.mem_flatMap.mp hf
    exact mem_rows_of_mem_page hp
  · exact List.mem_of_mem_take hr

theorem findFast_eq (leaderId : String) (rankings : List RankingType) :
    findFast folding directory.endpoint leaderId timeRange rankings =
      leaderWithId folding leaderId (rankings.flatMap (directory.page · 1 100)) := by
  induction rankings with
  | nil => rfl
  | cons dataType rest ih =>
    rw [findFast, endpoint, List.flatMap_cons, leaderWithId_append, ← ih]
    dsimp only
    cases leaderWithId folding leaderId (directory.page dataType 1 100) with
    | error reason => rfl
    | ok found =>
      cases found with
      | none => rfl
      | some leader => rfl

def foundLeader : Except String (Option LeaderSnapshot) → Except String LeaderSnapshot
  | .ok (some leader) => .ok leader
  | .ok none => .error "COPY_LEADER_LOOKUP_NOT_FOUND"
  | .error reason => .error reason

theorem findPaged_eq (leaderId : String) {left pageNumber : ℕ} (hf : 1 ≤ pageNumber) :
    findPaged folding directory.endpoint leaderId timeRange left pageNumber =
      foundLeader (leaderWithId folding leaderId (directory.window left pageNumber)) := by
  induction left generalizing pageNumber with
  | zero =>
    rw [window, pagesFrom, Nat.zero_min, Nat.mul_zero, List.take_zero]
    rfl
  | succ left ih =>
    rw [findPaged, endpoint]
    dsimp only
    split_ifs with hl
    · rw [window_last hf hl]
      cases leaderWithId folding leaderId (directory.page .roi pageNumber 100) with
      | error reason => rfl
      | ok found =>
        cases found with
        | none => rfl
        | some leader => rfl
    · rw [window_more hf hl, leaderWithId_append, ih (by omega)]
      cases leaderWithId folding leaderId (directory.page .roi pageNumber 100) with
      | error reason => rfl
      | ok found =>
        cases found with
        | none => rfl
        | some leader => rfl

theorem findLeader_eq {leaderId : String} {maximumPages : ℕ}
    (hp : matchesLeaderId leaderId = true) (ht : timeRange ∈ timeRanges)
    (hone : 1 ≤ maximumPages) (hl : maximumPages ≤ 100) (hc : directory.pageCount ≤ maximumPages) :
    findLeader folding directory.endpoint leaderId timeRange maximumPages =
      foundLeader (leaderWithId folding leaderId directory.lookupRows) := by
  have hr : ¬ (timeRange ∉ timeRanges ∨ maximumPages < 1 ∨ 100 < maximumPages) := by
    rintro (ho | hn | hm)
    · exact ho ht
    · omega
    · omega
  rw [findLeader, hp, Bool.not_true, if_neg Bool.false_ne_true, if_neg hr, findFast_eq,
    findPaged_eq leaderId le_rfl, window_first hone hc, lookupRows, leaderWithId_append]
  cases leaderWithId folding leaderId
      (fastLeaderLookupRankings.flatMap (directory.page · 1 100)) with
  | error reason => rfl
  | ok found =>
    cases found with
    | none => rfl
    | some leader => rfl

theorem findLeader_isOk_iff {leaderId : String} {maximumPages : ℕ} (ht : timeRange ∈ timeRanges)
    (hone : 1 ≤ maximumPages) (hli : maximumPages ≤ 100) (hc : directory.pageCount ≤ maximumPages) :
    (∃ leader, findLeader folding directory.endpoint leaderId timeRange maximumPages = .ok leader) ↔
      ∃ row ∈ directory.lookupRows, ∃ leader, row.leader folding = .ok leader ∧
        leader.leadPortfolioId = leaderId := by
  constructor
  · rintro ⟨leader, hf⟩
    have hp : matchesLeaderId leaderId = true := by
      by_contra hnot
      rw [findLeader, if_pos (by simpa using hnot)] at hf
      cases hf
    rw [findLeader_eq hp ht hone hli hc] at hf
    cases hlo : leaderWithId folding leaderId directory.lookupRows with
    | error reason =>
      rw [hlo] at hf
      cases hf
    | ok found =>
      cases found with
      | none =>
        rw [hlo] at hf
        cases hf
      | some other =>
        obtain ⟨hid, row, hr, hl⟩ := leaderWithId_eq_some hlo
        exact ⟨row, hr, other, hl, hid⟩
  · rintro ⟨row, hr, leader, hl, rfl⟩
    have hid := leaderId?_of_leader hl
    have hp : matchesLeaderId leader.leadPortfolioId = true := by
      cases row with
      | other => cases hl
      | mapping doc => exact (fromApi_eq_ok hl).2.1
    have ho : ∀ twin ∈ directory.lookupRows,
        twin.leaderId? = some leader.leadPortfolioId → twin = row := by
      intro twin htw hs
      exact row_of_id (mem_rows_of_mem_lookupRows htw) (mem_rows_of_mem_lookupRows hr) hs hid
    refine ⟨leader, ?_⟩
    rw [findLeader_eq hp ht hone hli hc, leaderWithId_of_mem hr hid ho, hl]
    rfl

end StaticDirectory

end AiQuant.CopyTrading
