import AiQuant.CopyTrading.DirectoryLookup

/-! The leaders of a nickname in an unchanging directory, and what all three lookups together
say about it. -/
namespace AiQuant.CopyTrading
open AiQuant.Lib

section Search

variable {folding : TextFolding} {qry : String}

def matchingLeaders (folding : TextFolding) (query : String) (rows : List ListRow) :
    List LeaderSnapshot :=
  (validLeaders folding rows).filter fun leader => nicknameMatches folding query leader.nickname

def SearchState.matches (state : SearchState) : List LeaderSnapshot :=
  state.exactMatches ++ state.partialMatches

theorem matchingLeaders_append (first second : List ListRow) :
    matchingLeaders folding qry (first ++ second) =
      matchingLeaders folding qry first ++ matchingLeaders folding qry second := by
  rw [matchingLeaders, validLeaders_append, List.filter_append]
  rfl

theorem mem_matchingLeaders {rows : List ListRow} {leader : LeaderSnapshot} :
    leader ∈ matchingLeaders folding qry rows ↔ (∃ row ∈ rows, row.leader folding = .ok leader) ∧
        nicknameMatches folding qry leader.nickname = true := by
  rw [matchingLeaders, List.mem_filter, mem_validLeaders]

theorem matchingLeaders_cons_error {row : ListRow} {rest : List ListRow} {reason : String}
    (hl : row.leader folding = .error reason) :
    matchingLeaders folding qry (row :: rest) = matchingLeaders folding qry rest := by
  rw [matchingLeaders, validLeaders, List.filterMap_cons, hl]
  rfl

theorem matchingLeaders_cons_ok {row : ListRow} {rest : List ListRow} {leader : LeaderSnapshot}
    (hl : row.leader folding = .ok leader) : matchingLeaders folding qry (row :: rest) =
      if nicknameMatches folding qry leader.nickname = true then
        leader :: matchingLeaders folding qry rest
      else matchingLeaders folding qry rest := by
  rw [matchingLeaders, validLeaders, List.filterMap_cons, hl]
  exact List.filter_cons

theorem searchRow_error {st : SearchState} {row : ListRow} {reason : String}
    (hl : row.leader folding = .error reason) : searchRow folding qry st row = st := by
  cases row with
  | other => rfl
  | mapping doc =>
    have hd : LeaderSnapshot.fromApi folding doc = .error reason := hl
    rw [searchRow]
    cases doc.nickname with
    | other => rfl
    | text nickname =>
      cases doc.leadPortfolioId with
      | other shown => rfl
      | text leaderId =>
        dsimp only
        by_cases hs : leaderId ∈ st.seen ∨ !nicknameMatches folding qry nickname
        · rw [if_pos hs]
        · rw [if_neg hs, hd]

theorem searchRow_ok {st : SearchState} {row : ListRow} {leader : LeaderSnapshot}
    (hl : row.leader folding = .ok leader) (hnew : leader.leadPortfolioId ∉ st.seen) :
    (nicknameMatches folding qry leader.nickname = true →
        (searchRow folding qry st row).matches.Perm (leader :: st.matches) ∧
        (searchRow folding qry st row).seen = insert leader.leadPortfolioId st.seen) ∧
      (nicknameMatches folding qry leader.nickname ≠ true → searchRow folding qry st row = st) := by
  cases row with
  | other => cases hl
  | mapping doc =>
    obtain ⟨hid, -, hn⟩ := fromApi_eq_ok hl
    have hd : LeaderSnapshot.fromApi folding doc = .ok leader := hl
    rw [searchRow, hid, hn, hd]
    dsimp only
    constructor
    · intro hm
      rw [if_neg (by simp [hnew, hm])]
      split_ifs
      · refine ⟨?_, rfl⟩
        simp only [SearchState.matches, List.append_assoc, List.singleton_append]
        exact List.perm_middle
      · refine ⟨?_, rfl⟩
        simp only [SearchState.matches, ← List.append_assoc]
        exact List.perm_append_singleton leader _
    · intro hnot
      exact if_pos (.inr (by simpa using hnot))

theorem foldl_searchRow (rows : List ListRow) (st : SearchState)
    (hn : ∀ leader ∈ validLeaders folding rows, leader.leadPortfolioId ∉ st.seen)
    (hd : ((validLeaders folding rows).map (·.leadPortfolioId)).Nodup) :
    (rows.foldl (searchRow folding qry) st).matches.Perm
      (st.matches ++ matchingLeaders folding qry rows) := by
  induction rows generalizing st with
  | nil => rw [List.foldl_nil, matchingLeaders, validLeaders, List.filterMap_nil, List.filter_nil,
      List.append_nil]
  | cons row rest ih =>
    rw [List.foldl_cons]
    cases hl : row.leader folding with
    | error reason =>
      have hr : validLeaders folding (row :: rest) = validLeaders folding rest := by
        rw [validLeaders, List.filterMap_cons, hl]
        rfl
      rw [hr] at hn hd
      rw [searchRow_error hl, matchingLeaders_cons_error hl]
      exact ih st hn hd
    | ok leader =>
      have hr : validLeaders folding (row :: rest) = leader :: validLeaders folding rest := by
        rw [validLeaders, List.filterMap_cons, hl]
        rfl
      rw [hr] at hn hd
      rw [List.map_cons, List.nodup_cons] at hd
      obtain ⟨hf, hla⟩ := List.forall_mem_cons.mp hn
      obtain ⟨had, hs⟩ := @searchRow_ok folding qry st row leader hl hf
      rw [matchingLeaders_cons_ok hl]
      split_ifs with hm
      · obtain ⟨hp, hse⟩ := had hm
        have ha : ∀ later ∈ validLeaders folding rest,
            later.leadPortfolioId ∉ (searchRow folding qry st row).seen := by
          intro later hmem hin
          rw [hse, Finset.mem_insert] at hin
          rcases hin with hsa | ho
          · exact hd.1 (hsa ▸ List.mem_map_of_mem hmem)
          · exact hla later hmem ho
        have hc := (ih _ ha hd.2).trans (hp.append_right _)
        exact hc.trans List.perm_middle.symm
      · rw [hs hm]
        exact ih st hla hd.2

end Search

namespace StaticDirectory

variable {directory : StaticDirectory} {folding : TextFolding} {timeRange : String}

theorem searchPaged_eq (qry : String) {left pageNumber : ℕ} (hf : 1 ≤ pageNumber)
    (st : SearchState) : searchPaged folding directory.endpoint qry timeRange left pageNumber st =
      .ok ((directory.window left pageNumber).foldl (searchRow folding qry) st) := by
  induction left generalizing pageNumber st with
  | zero =>
    rw [window, pagesFrom, Nat.zero_min, Nat.mul_zero, List.take_zero]
    rfl
  | succ left ih =>
    rw [searchPaged, endpoint]
    dsimp only
    split_ifs with hl
    · rw [window_last hf hl]
    · rw [window_more hf hl, List.foldl_append]
      exact ih (by omega) _

theorem searchLeaders_eq {nicknameQuery : String} {maximumResults maximumPages : ℕ}
    (hq : QueryAllowed folding nicknameQuery) (ht : timeRange ∈ timeRanges)
    (hre : 1 ≤ maximumResults) (hr : maximumResults ≤ 12) (ho : 1 ≤ maximumPages)
    (hl : maximumPages ≤ 100) (hc : directory.pageCount ≤ maximumPages) :
    ∃ collected : List LeaderSnapshot,
      searchLeaders folding directory.endpoint nicknameQuery timeRange maximumResults
        maximumPages = .ok (collected.take maximumResults) ∧
      collected.Perm
        (matchingLeaders folding (searchQuery folding nicknameQuery) directory.rowsRead) := by
  refine ⟨(directory.rowsRead.foldl (searchRow folding (searchQuery folding nicknameQuery))
    ⟨[], [], ∅⟩).matches, ?_, ?_⟩
  · rw [searchLeaders, if_neg (not_not.mpr hq), if_neg (not_not.mpr ht), if_neg (by omega),
      searchPaged_eq _ le_rfl, window_first ho hc]
    rfl
  · apply foldl_searchRow
    · intro leader _
      exact Finset.notMem_empty _
    · exact take_ids_nodup .roi _

/-- The limits of a caller, with all pages of the directory within them. -/
structure Limits (directory : StaticDirectory) where
  timeRange : String
  snapshotPages : ℕ
  lookupPages : ℕ
  timeRange_mem : timeRange ∈ timeRanges
  snapshotPages_le : snapshotPages ≤ 1000
  lookupPages_pos : 1 ≤ lookupPages
  lookupPages_le : lookupPages ≤ 100
  pageCount_le_snapshot : directory.pageCount ≤ snapshotPages
  pageCount_le_lookup : directory.pageCount ≤ lookupPages

def queried (folding : TextFolding) (nicknameQuery : String) (leaders : List LeaderSnapshot) :
    List LeaderSnapshot :=
  leaders.filter fun leader =>
    nicknameMatches folding (searchQuery folding nicknameQuery) leader.nickname

/-- The whole directory has every valid leader once, an id is found exactly if it is in it, and
a search has exactly the leaders of the query that are in it. -/
def LookupsAgree (folding : TextFolding) (limits : Limits directory) : Prop :=
  ∀ dataType, ∃ found,
    listAllLeadersSnapshot folding directory.endpoint limits.timeRange dataType
      limits.snapshotPages = .ok found ∧
    found.leaders.Perm (validLeaders folding directory.rows) ∧
    (found.leaders.map (·.leadPortfolioId)).Nodup ∧
    (∀ leaderId,
      (∃ leader, findLeader folding directory.endpoint leaderId limits.timeRange
        limits.lookupPages = .ok leader) ↔ leaderId ∈ found.leaders.map (·.leadPortfolioId)) ∧
    ∀ nicknameQuery, QueryAllowed folding nicknameQuery →
      ∀ maximumResults, 1 ≤ maximumResults → maximumResults ≤ 12 →
        (queried folding nicknameQuery found.leaders).length ≤ maximumResults →
        ∃ results,
          searchLeaders folding directory.endpoint nicknameQuery limits.timeRange maximumResults
            limits.lookupPages = .ok results ∧
          results.Perm (queried folding nicknameQuery found.leaders)

/-- The row is on the first page of a fast ranking, and a query that matches its nickname
matches more leaders than a search may return. -/
def OnFastPage (directory : StaticDirectory) (folding : TextFolding) (row : ListRow)
    (leader : LeaderSnapshot) : Prop :=
  (∃ dataType ∈ fastLeaderLookupRankings, row ∈ directory.page dataType 1 100) ∧
    ∀ nicknameQuery, QueryAllowed folding nicknameQuery →
      nicknameMatches folding (searchQuery folding nicknameQuery) leader.nickname = true →
      12 < (queried folding nicknameQuery (validLeaders folding directory.rows)).length

/-- The valid rows are among the pages of one hundred rows that the total promises, which are
pages of `pageCap` rows, or where it does not matter that they are not. -/
def Covered (directory : StaticDirectory) (folding : TextFolding) : Prop :=
  ∀ row ∈ directory.rows, ∀ leader, row.leader folding = .ok leader →
    row ∈ directory.rowsRead ∨ directory.OnFastPage folding row leader

theorem not_mem_drop {count : ℕ} {row : ListRow} {leaderId : String}
    (hid : row.leaderId? = some leaderId) (ht : row ∈ directory.rows.take count) :
    row ∉ directory.rows.drop count := by
  intro hd
  have hs : (directory.rows.take count ++ directory.rows.drop count).Pairwise
      fun first second : ListRow =>
        ∀ leaderId, first.leaderId? = some leaderId → second.leaderId? ≠ some leaderId := by
    rw [List.take_append_drop]
    exact directory.ids_distinct
  exact (List.pairwise_append.mp hs).2.2 row ht row hd leaderId hid hid

theorem matchingLeaders_rowsRead {nicknameQuery : String} (hc : directory.Covered folding)
    (hq : QueryAllowed folding nicknameQuery)
    (hf : (queried folding nicknameQuery (validLeaders folding directory.rows)).length ≤ 12) :
    matchingLeaders folding (searchQuery folding nicknameQuery) directory.rowsRead =
      queried folding nicknameQuery (validLeaders folding directory.rows) := by
  have hla : matchingLeaders folding (searchQuery folding nicknameQuery)
      (directory.rows.drop (directory.pageCap * directory.pagesRead)) = [] := by
    rw [List.eq_nil_iff_forall_not_mem]
    intro leader hl
    obtain ⟨⟨row, hd, hrow⟩, hm⟩ := mem_matchingLeaders.mp hl
    rcases hc row (List.mem_of_mem_drop hd) leader hrow with hr | ⟨-, hma⟩
    · exact not_mem_drop (leaderId?_of_leader hrow) hr hd
    · have := hma nicknameQuery hq hm
      omega
  have hs := @matchingLeaders_append folding (searchQuery folding nicknameQuery)
    directory.rowsRead (directory.rows.drop (directory.pageCap * directory.pagesRead))
  rw [hla, List.append_nil, rowsRead, List.take_append_drop] at hs
  exact hs.symm

theorem covered_of_agree {limits : Limits directory} (ha : LookupsAgree folding limits) :
    directory.Covered folding := by
  intro row hrow leader hle
  obtain ⟨found, -, hpe, -, hfi, hs⟩ := ha .roi
  have hmem : leader ∈ found.leaders :=
    hpe.mem_iff.mpr (mem_validLeaders.mpr ⟨row, hrow, hle⟩)
  have ho {listed : ListRow} {twin : LeaderSnapshot} (hl : listed ∈ directory.rows)
      (ht : listed.leader folding = .ok twin)
      (hid : twin.leadPortfolioId = leader.leadPortfolioId) : listed = row :=
    row_of_leader hl hrow ht hle hid
  by_cases hre : row ∈ directory.rowsRead
  · exact .inl hre
  · refine .inr ⟨?_, ?_⟩
    · have hf := (hfi leader.leadPortfolioId).mpr (List.mem_map_of_mem hmem)
      rw [findLeader_isOk_iff limits.timeRange_mem limits.lookupPages_pos limits.lookupPages_le
        limits.pageCount_le_lookup] at hf
      obtain ⟨listed, hl, twin, ht, hid⟩ := hf
      obtain rfl := ho (mem_rows_of_mem_lookupRows hl) ht hid
      rcases List.mem_append.mp hl with hfa | hla
      · exact List.mem_flatMap.mp hfa
      · exact absurd hla hre
    · intro nicknameQuery hq hm
      by_contra hfew
      have hlen : (queried folding nicknameQuery found.leaders).length ≤ 12 := by
        rw [queried, (hpe.filter _).length_eq]
        exact not_lt.mp hfew
      obtain ⟨results, hr, he⟩ :=
        hs nicknameQuery hq 12 (by omega) le_rfl hlen
      obtain ⟨collected, hc, hp⟩ := searchLeaders_eq hq
        limits.timeRange_mem (show 1 ≤ 12 by omega) le_rfl limits.lookupPages_pos
        limits.lookupPages_le limits.pageCount_le_lookup
      rw [hc] at hr
      obtain rfl := Except.ok.inj hr
      have hin : leader ∈ collected.take 12 :=
        he.mem_iff.mpr (List.mem_filter.mpr ⟨hmem, hm⟩)
      obtain ⟨⟨listed, hl, ht⟩, -⟩ :=
        mem_matchingLeaders.mp (hp.mem_iff.mp (List.mem_of_mem_take hin))
      obtain rfl := ho (List.mem_of_mem_take hl) ht rfl
      exact hre hl

theorem agree_of_covered {limits : Limits directory} (hco : directory.Covered folding) :
    LookupsAgree folding limits := by
  intro dataType
  have hpe : (validLeaders folding (directory.ranking dataType)).Perm
      (validLeaders folding directory.rows) := (directory.ranking_perm dataType).filterMap _
  refine ⟨_, listAllLeadersSnapshot_eq limits.timeRange_mem limits.snapshotPages_le
    limits.pageCount_le_snapshot dataType, hpe, ids_nodup dataType, ?_, ?_⟩
  · intro leaderId
    rw [findLeader_isOk_iff limits.timeRange_mem limits.lookupPages_pos limits.lookupPages_le
      limits.pageCount_le_lookup]
    constructor
    · rintro ⟨row, hrow, leader, hl, rfl⟩
      have hm : leader ∈ validLeaders folding directory.rows :=
        mem_validLeaders.mpr ⟨row, mem_rows_of_mem_lookupRows hrow, hl⟩
      exact List.mem_map_of_mem (hpe.mem_iff.mpr hm)
    · intro hid
      obtain ⟨leader, hm, rfl⟩ := List.mem_map.mp hid
      obtain ⟨row, hrow, hl⟩ := mem_validLeaders.mp (hpe.mem_iff.mp hm)
      refine ⟨row, ?_, leader, hl, rfl⟩
      rcases hco row hrow leader hl with hread | ⟨hfa, -⟩
      · exact List.mem_append_right _ hread
      · exact List.mem_append_left _ (List.mem_flatMap.mpr hfa)
  · intro nicknameQuery hq maximumResults hre hr hle
    have hf : (queried folding nicknameQuery
        (validLeaders folding (directory.ranking dataType))).Perm
          (queried folding nicknameQuery (validLeaders folding directory.rows)) :=
      hpe.filter _
    obtain ⟨collected, hc, hp⟩ := searchLeaders_eq hq
      limits.timeRange_mem hre hr limits.lookupPages_pos
      limits.lookupPages_le limits.pageCount_le_lookup
    have hfew : (queried folding nicknameQuery (validLeaders folding directory.rows)).length ≤
        maximumResults := by
      rw [← hf.length_eq]
      exact hle
    rw [matchingLeaders_rowsRead hco hq (by omega)] at hp
    rw [List.take_of_length_le (by rw [hp.length_eq]; exact hfew)] at hc
    exact ⟨collected, hc, hp.trans hf.symm⟩

/-- The lookups agree exactly on the directories whose rows they cover. -/
theorem lookups_agree_iff (directory : StaticDirectory) (folding : TextFolding)
    (limits : Limits directory) : LookupsAgree folding limits ↔ directory.Covered folding :=
  ⟨covered_of_agree, agree_of_covered⟩

/-! Twenty-one leaders on pages of twenty: the total of 21 promises a single page. -/

def listedLeader (number : ℕ) : ListRow := .mapping {
  leadPortfolioId := .text (toString (4000000000 + number))
  nickname := .text "satoshi"
  portfolioType := .text "PUBLIC"
  sharpRatio := none
  roi := .finite 12
  pnl := .finite 340
  aum := .finite 5000
  mdd := .finite 8
  winRate := .finite 61
  currentCopyCount := some 3
  maxCopyCount := some 200
  startTime := some 1700000000000
  extra := "" }

def crowdRows : List ListRow := (List.range 21).map listedLeader

theorem crowd_distinct : crowdRows.Pairwise fun first second =>
    ∀ leaderId, first.leaderId? = some leaderId → second.leaderId? ≠ some leaderId := by
  have hd : (crowdRows.map ListRow.leaderId?).Nodup := by decide
  rw [List.Nodup, List.pairwise_map] at hd
  apply hd.imp
  intro first second hne leaderId hf hs
  exact hne (hf.trans hs.symm)

theorem crowd_cap : 1 ≤ 20 ∧ 20 ≤ 100 := by decide

def crowd : StaticDirectory where
  ranking _ := crowdRows
  pageCap := 20
  pageCap_pos := crowd_cap.1
  pageCap_le := crowd_cap.2
  ranking_perm _ := List.Perm.refl crowdRows
  ids_distinct := crowd_distinct

theorem crowd_within : "30D" ∈ timeRanges ∧ 400 ≤ 1000 ∧ 1 ≤ 100 ∧ crowd.pageCount ≤ 100 ∧
    crowd.pageCount ≤ 400 := by
  decide

def crowdLimits : Limits crowd where
  timeRange := "30D"
  snapshotPages := 400
  lookupPages := 100
  timeRange_mem := crowd_within.1
  snapshotPages_le := crowd_within.2.1
  lookupPages_pos := crowd_within.2.2.1
  lookupPages_le := le_rfl
  pageCount_le_snapshot := crowd_within.2.2.2.2
  pageCount_le_lookup := crowd_within.2.2.2.1

def plainFolding : TextFolding := ⟨id, id⟩

theorem crowd_leader_missed : ¬ LookupsAgree plainFolding crowdLimits := by
  intro ha
  obtain ⟨found, -, hp, -, hfi, -⟩ := ha .roi
  have hl : "4000000020" ∈
      (validLeaders plainFolding crowdRows).map (·.leadPortfolioId) := by decide
  obtain ⟨leader, hf⟩ :=
    (hfi "4000000020").mpr ((hp.map (·.leadPortfolioId)).mem_iff.mpr hl)
  have hm : findLeader plainFolding crowd.endpoint "4000000020" "30D" 100 =
      .error "COPY_LEADER_LOOKUP_NOT_FOUND" := rfl
  cases hm.symm.trans hf

end StaticDirectory

end AiQuant.CopyTrading
