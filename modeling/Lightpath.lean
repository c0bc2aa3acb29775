import Lightpath.Controller.Logging
import Lightpath.Rest.Handler
import Lightpath.Proofs.Site.Run
import Lightpath.Proofs.Outcome
import Lightpath.Proofs.Numeral.WholeText
import Lightpath.Proofs.OrderedMap
import Lightpath.Proofs.Text.Trim
import Lightpath.Proofs.Xml.Markup
import Lightpath.Proofs.Xml.Reads
import Lightpath.Proofs.Xml.Simulation
import Lightpath.Proofs.Xml.Tree
import Lightpath.Proofs.Xml.Allowed
import Lightpath.Proofs.Xml.LineEnds
import Lightpath.Proofs.Xml.Insertion
import Lightpath.Proofs.CrossConnect.RuleKey
import Lightpath.Proofs.CrossConnect.Standing
import Lightpath.Proofs.CrossConnect.FullBand
import Lightpath.Proofs.Spectrum.Encoding
import Lightpath.Proofs.Spectrum.Rounding
import Lightpath.Proofs.CrossConnect.Quantisation
import Lightpath.Proofs.CrossConnect.OrderHistory
import Lightpath.Proofs.CrossConnect.Conversation
import Lightpath.Proofs.CrossConnect.LiveRules
import Lightpath.Proofs.CrossConnect.Drop
import Lightpath.Proofs.CrossConnect.Declared
import Lightpath.Proofs.CrossConnect.EditMarkup
import Lightpath.Proofs.CrossConnect.DropListed
import Lightpath.Proofs.CrossConnect.BranchReading
import Lightpath.Proofs.CrossConnect.Placement
import Lightpath.Proofs.CrossConnect.ReadBack
import Lightpath.Proofs.CrossConnect.BatchEdit
import Lightpath.Proofs.CrossConnect.Acknowledgement
import Lightpath.Proofs.Site.Along
import Lightpath.Proofs.Site.Confined
import Lightpath.Proofs.PathPlan.Along
import Lightpath.Proofs.PathPlan.Provision
import Lightpath.Proofs.Numeral.DecimalBounds
import Lightpath.Proofs.PathPlan.Label
import Lightpath.Proofs.PathPlan.Usable
import Lightpath.Proofs.PathPlan.Malformed
import Lightpath.Proofs.Text.Order
import Lightpath.Proofs.Topology.PointText
import Lightpath.Proofs.LinkStore.Stored
import Lightpath.Proofs.PathPlan.LinkedPath
import Lightpath.Proofs.PathPlan.ReplyPower
import Lightpath.Proofs.PathPlan.PowerCalls
import Lightpath.Proofs.CrossConnect.Reported
import Lightpath.Proofs.Rest.Handling
import Lightpath.Proofs.Engine.Session
import Lightpath.Proofs.Engine.LifeCycle
import Lightpath.Proofs.CrossConnect.Ownership
import Lightpath.Proofs.PathPlan.LinkResolution
import Lightpath.Proofs.PathPlan.RouteObjects
import Lightpath.Proofs.PathPlan.RouteReading
import Lightpath.Proofs.Numeral.ExactDecimal
import Lightpath.Proofs.Numeral.DecimalText
import Lightpath.Proofs.PathPlan.LabelSlot
import Lightpath.Proofs.CrossConnect.Listing
import Lightpath.Proofs.Power.Readings
import Lightpath.Proofs.PathPlan.PassedPowers
import Lightpath.Proofs.Form.Accepted
import Lightpath.Proofs.Json.Equality
import Lightpath.Proofs.Numeral.Product
import Lightpath.Proofs.Spectrum.OrderedSlot
import Lightpath.Proofs.Rest.Encodable
import Lightpath.Proofs.Spectrum.Lambdas
import Lightpath.Proofs.LinkStore.LookUp
import Lightpath.Proofs.Numeral.WholeGrammar
import Lightpath.Proofs.Topology.PointReading
import Lightpath.Proofs.Numeral.NearestWord
import Lightpath.Proofs.Numeral.ShortestDigits
import Lightpath.Proofs.Numeral.DecimalGrammar
import Lightpath.Proofs.Numeral.FloatText
import Lightpath.Proofs.Xml.RootElement
import Lightpath.Proofs.Power.TargetPower
import Lightpath.Proofs.Xml.PathSearch
import Lightpath.Proofs.CrossConnect.TableMemory
import Lightpath.Proofs.Xml.Unspaced
import Lightpath.Proofs.Xml.PlainNames
import Lightpath.Proofs.CrossConnect.Unspaced
import Lightpath.Proofs.Power.Unspaced
