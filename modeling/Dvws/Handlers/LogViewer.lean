import Dvws.Handlers.Logs
import Dvws.Shell.Tokens

/-!
# The command of the log viewer

`handle_log_viewer` builds a shell command from a level, which it checks, and from the text of a
search, which `shell_escape` puts between double quotes. `RunsPipeline` says that the shell reads
this command as the one that is meant; `log_viewer_runs_pipeline_iff` says for which texts it does.
-/

namespace Dvws

open Effect Shell

/-- The levels that are not answered with an error. -/
def validLevels : List Bytes := [[], lit "error", lit "warning", lit "info"]

/-- The first command. -/
def fixedTokens (level : Bytes) : List Token :=
  if level ≠ [] then
    [.word (lit "grep"), .word (lit "-i"), .word level, .word logPath]
  else [.word (lit "tail"), .word (lit "-n"), .word (lit "50"), .word logPath]

/-- The second one, up to the text that is searched for. -/
def searchTokens : List Token := [.operator (lit "|"), .word (lit "grep"), .word (lit "-i")]

/-- The command is the one for this level alone, or piped into a search for the decoded text. -/
def RunsPipeline (plat : Platform) (level search command : Bytes) : Prop :=
  tokens command = some (fixedTokens level ++
    if search = [] then [] else searchTokens ++ [.word (urlDecode plat.uninit search)])

/-- A text that the shell and `popen` take as it is between double quotes. -/
def StandsForItself (text : Bytes) : Prop := 0 ∉ text ∧ literal text = true

instance (text : Bytes) : Decidable (StandsForItself text) :=
  inferInstanceAs (Decidable (_ ∧ _))

section Command

variable {plat : Platform} {level search : Bytes}

/-- The command up to the quotes. -/
def fixedCommand (level : Bytes) : Bytes :=
  if level ≠ [] then lit "grep -i " ++ level ++ lit " " ++ logPath
  else lit "tail -n 50 " ++ logPath

/-- The fixed part of the command has no NUL. -/
theorem zero_not_mem_fixed (hlevel : level ∈ validLevels) : 0 ∉ fixedCommand level := by
  have hall : ∀ level ∈ validLevels, (0 : UInt8) ∉ fixedCommand level := by decide +kernel
  exact hall level hlevel

/-- The shell reads it as the first command. -/
theorem tokens_fixed (hlevel : level ∈ validLevels) :
    tokens (fixedCommand level) = some (fixedTokens level) := by
  have hall : ∀ level ∈ validLevels, tokens (fixedCommand level) = some (fixedTokens level) := by
    decide +kernel
  exact hall level hlevel

/-- The fixed part, with the pipe and the second `grep` behind it, leaves the shell outside of
quotes and between two words. -/
theorem run_fixed (hlevel : level ∈ validLevels) :
    run start (fixedCommand level ++ lit " | grep -i ") =
      some ⟨.plain, [], none, fixedTokens level ++ searchTokens⟩ := by
  have hall : ∀ level ∈ validLevels, run start (fixedCommand level ++ lit " | grep -i ") =
      some ⟨.plain, [], none, fixedTokens level ++ searchTokens⟩ := by decide +kernel
  exact hall level hlevel

/-- Without a search, the fixed part is the whole command. -/
theorem log_command_without_search (plat : Platform) (level : Bytes) :
    logCommand plat level [] = fixedCommand level := List.append_nil _

/-- With a search, the decoded text stands between quotes at the end of the command. -/
theorem log_command_with_search (hsearch : search ≠ []) :
    logCommand plat level search = (fixedCommand level ++ lit " | grep -i ") ++
      34 :: (urlDecode plat.uninit search ++ [34]) := by
  rw [logCommand, if_pos hsearch, shellEscape, ← fixedCommand]
  simp [show lit "\"" = [34] from rfl]

/-- What `popen` reads of a text in quotes: a NUL in the text takes the closing quote away. -/
theorem cstr_quoted (text : Bytes) :
    cstr (34 :: (text ++ [34])) = 34 :: (cstr text ++ if 0 ∈ text then [] else [34]) := by
  have hopen : cstr (34 :: (text ++ [34])) = 34 :: cstr (text ++ [34]) := rfl
  rw [hopen]
  by_cases hzero : 0 ∈ text
  · rw [if_pos hzero, List.append_nil, cstr_append_of_mem hzero]
  · rw [if_neg hzero, cstr_append hzero, cstr_of_not_mem hzero]
    rfl

/-- The shell reads the command as the one that is meant exactly when there is no search, or the
decoded text of the search stands for itself. -/
theorem runs_pipeline_iff (hlevel : level ∈ validLevels) :
    RunsPipeline plat level search (cstr (logCommand plat level search)) ↔
      search = [] ∨ StandsForItself (urlDecode plat.uninit search) := by
  unfold RunsPipeline
  by_cases hsearch : search = []
  · rw [hsearch, log_command_without_search, cstr_of_not_mem (zero_not_mem_fixed hlevel),
      if_pos rfl, List.append_nil]
    exact iff_of_true (tokens_fixed hlevel) (Or.inl rfl)
  · have hfront : (0 : UInt8) ∉ fixedCommand level ++ lit " | grep -i " := by
      have hpipe : (0 : UInt8) ∉ lit " | grep -i " := by decide
      simp [zero_not_mem_fixed hlevel, hpipe]
    rw [log_command_with_search hsearch, cstr_append hfront, cstr_quoted, if_neg hsearch,
      or_iff_right hsearch, ← List.append_assoc, StandsForItself]
    by_cases hzero : 0 ∈ urlDecode plat.uninit search
    · rw [if_pos hzero, List.append_nil]
      refine iff_of_false (tokens_unclosed_ne (run_fixed hlevel) ?_) fun h => h.1 hzero
      exact (List.takeWhile_prefix _).length_le
    · rw [if_neg hzero, cstr_of_not_mem hzero, tokens_quoted_iff _ (run_fixed hlevel)]
      exact (and_iff_right hzero).symm

end Command

/-- If the event runs a command, its level is valid and it is the one for these parameters. -/
def RunsFor (plat : Platform) (params : Params) : Event → Prop
  | .popen command => params.subscript (lit "level") ∈ validLevels ∧ command =
      cstr (logCommand plat (params.subscript (lit "level")) (params.subscript (lit "search")))
  | _ => True

/-- The log viewer runs the command for the parameters of the request. -/
theorem handle_log_viewer_runs {plat : Platform} {request : Bytes} {params : Params}
    (hparams : extractQueryParameters request = .ok params) :
    Behaves (RunsFor plat params) id (handleLogViewer plat request) := by
  unfold handleLogViewer
  rw [hparams, lift_ok_bind]
  dsimp only
  by_cases hlevel : params.subscript (lit "level") ≠ [] ∧
      params.subscript (lit "level") ∉ [lit "error", lit "warning", lit "info"]
  · rw [if_pos hlevel]
    exact send_status_emits trivial trivial _
  · rw [if_neg hlevel]
    have hvalid : params.subscript (lit "level") ∈ validLevels := by
      rw [not_and_or, not_not, not_not] at hlevel
      exact List.mem_cons.mpr hlevel
    refine .bind (.emit ⟨hvalid, rfl⟩) fun _ => ?_
    split
    · exact send_status_emits trivial trivial _
    · exact .ite (send_status_emits trivial trivial _) (send_status_emits trivial trivial _)

/-- The log viewer runs nothing but its pipeline exactly when there is no search, or the decoded
text of the search has no NUL and no byte with a meaning of its own in double quotes. -/
theorem log_viewer_runs_pipeline_iff {plat : Platform} {request command : Bytes} {params : Params}
    {s : Server} (hparams : extractQueryParameters request = .ok params)
    (hpopen : .popen command ∈ (handleLogViewer plat request s).events) :
    RunsPipeline plat (params.subscript (lit "level")) (params.subscript (lit "search")) command ↔
      params.subscript (lit "search") = [] ∨
        StandsForItself (urlDecode plat.uninit (params.subscript (lit "search"))) := by
  obtain ⟨hlevel, rfl⟩ := (handle_log_viewer_runs hparams).events s _ hpopen
  exact runs_pipeline_iff hlevel

/-- A search for two words. -/
def wordsRequest : Bytes := lit "GET /logs?level=info&search=two+words HTTP/1.1\r\n\r\n"

/-- A search for two words is run as it is meant. -/
theorem log_viewer_runs_pipeline_iff_words :
    tokens (lit "grep -i info /tmp/server.log | grep -i \"two words\"") =
      some (fixedTokens (lit "info") ++ (searchTokens ++ [.word (lit "two words")])) := by
  have hparams : extractQueryParameters wordsRequest =
      .ok (AList.insert (lit "search") (lit "two+words")
        (AList.insert (lit "level") (lit "info") ∅)) := rfl
  have hpopen : .popen (lit "grep -i info /tmp/server.log | grep -i \"two words\"") ∈
      (handleLogViewer .bare wordsRequest .init).events := by decide +kernel
  exact (log_viewer_runs_pipeline_iff hparams hpopen).mpr (Or.inr (by decide +kernel))

/-- A search with two quotes in it. -/
def quotesRequest : Bytes :=
  lit "GET /logs?search=%22%3B%20echo%20DVWS_MARKER_OK%20%22 HTTP/1.1\r\n\r\n"

/-- A search with quotes in it leaves them, and what is between them is run as a command of
its own. -/
theorem not_runs_pipeline :
    extractQueryParameters quotesRequest =
        .ok (AList.insert (lit "search") (lit "%22%3B%20echo%20DVWS_MARKER_OK%20%22") ∅) ∧
      .popen (lit "tail -n 50 /tmp/server.log | grep -i \"\"; echo DVWS_MARKER_OK \"\"") ∈
        (handleLogViewer .bare quotesRequest .init).events ∧
      tokens (lit "tail -n 50 /tmp/server.log | grep -i \"\"; echo DVWS_MARKER_OK \"\"") =
        some (fixedTokens [] ++ searchTokens ++ [.word [], .operator (lit ";"),
          .word (lit "echo"), .word (lit "DVWS_MARKER_OK"), .word []]) ∧
      ¬ RunsPipeline .bare [] (lit "%22%3B%20echo%20DVWS_MARKER_OK%20%22")
        (lit "tail -n 50 /tmp/server.log | grep -i \"\"; echo DVWS_MARKER_OK \"\"") := by
  refine ⟨rfl, by decide +kernel, by decide +kernel, ?_⟩
  unfold RunsPipeline
  decide +kernel

end Dvws
