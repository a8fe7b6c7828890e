import JsonFilter.Session

namespace JsonFilter

variable {ω ε : Type}

def filterWith (eng : Engine ω ε) (json filter : String) (options : Options) (t : Trace ω) :
    Outcome × Trace ω :=
  match Session.create eng t with
  | (.error f, t) => (.failed f, t)
  | (.ok s, t) =>
    match s.compile eng filter t with
    | ((.error f, s), t) => (.failed f, s.teardown eng t)
    | ((.ok (), s), t) => s.run eng json options t

def validateWith (eng : Engine ω ε) (filter : String) (t : Trace ω) :
    Except Failure Unit × Trace ω :=
  match Session.create eng t with
  | (.error f, t) => (.error f, t)
  | (.ok s, t) =>
    let ((r, s), t) := s.compile eng filter t
    (r, s.teardown eng t)

end JsonFilter
