import RequestFeed.Filter.Progress
/-!
# Reading a filter to its end

A consumer that reads from a filter until the filter reports an end, and tries again whenever the
filter only says that there is nothing right now.

Every read that is followed by another has delivered something, so the reading ends. A read that
delivers nothing would be repeated for ever, so it is taken for the end.
-/

namespace RequestFeed

/-- What reading a filter to its end gave. -/
structure Delivered (σ : Type) where
  /-- The bytes, read by read. -/
  output : List Bytes
  /-- How the last read ended. -/
  ending : Except Violation ReadError
  filter : Filter
  source : σ
  notices : List Notice

namespace Filter

section

variable {σ : Type} [Source σ]

/-- Reads until the filter reports an end. -/
def readToEnd (limit : Nat) (f : Filter) (s : σ) : Delivered σ :=
  let result := f.read ⟨.bytes, .block, limit⟩ s
  match _hr : (f.read ⟨.bytes, .block, limit⟩ s).reply with
  | .error v =>
    { output := [], ending := .error v, filter := result.filter, source := result.source,
      notices := result.notices }
  | .ok reply =>
    let stop (e : ReadError) : Delivered σ :=
      { output := [reply.output.bytes], ending := .ok e, filter := result.filter,
        source := result.source, notices := result.notices }
    match reply.status with
    | .failed .general => stop .general
    | .failed .connAborted => stop .connAborted
    | .failed .eof => stop .eof
    | .ok | .failed .wouldBlock =>
      if _h : reply.output.bytes = [] then stop .wouldBlock
      else
        let rest := readToEnd limit (f.read ⟨.bytes, .block, limit⟩ s).filter
          (f.read ⟨.bytes, .block, limit⟩ s).source
        { rest with
          output := reply.output.bytes :: rest.output
          notices := result.notices ++ rest.notices }
termination_by (f.demux.remaining s, f.demux.feed.held)
decreasing_by
  rcases advances_of_read rfl _hr _h with hlt | ⟨heq, hlt⟩
  · exact Prod.Lex.left _ _ hlt
  · rw [heq]
    exact Prod.Lex.right _ hlt

end

end Filter
end RequestFeed
