namespace SiteVisit.Markup

structure Style where
  bold : Bool := false
  italics : Bool := false
  underline : Bool := false
  deriving DecidableEq, Repr

structure TextRun where
  text : String
  style : Style := {}
  deriving DecidableEq, Repr

end SiteVisit.Markup
