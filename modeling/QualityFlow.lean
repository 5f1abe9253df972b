import QualityFlow.Command.RoundTrip
import QualityFlow.Suite.Items
import QualityFlow.Suite.Run
import QualityFlow.Constants.Planner
import QualityFlow.Suite.Validate
import QualityFlow.Template.Generator
import QualityFlow.Suite.Store
import QualityFlow.Suite.Closing
import QualityFlow.Context.Path
import QualityFlow.Context.Resolver
import QualityFlow.Context.Simulation
import QualityFlow.Events.Bus
import QualityFlow.Events.Stream
import QualityFlow.MockServer.Registry
import QualityFlow.Py.Sort
import QualityFlow.Schedule.Api
import QualityFlow.Schedule.Reports
import QualityFlow.Suite.Keys
import QualityFlow.Suite.Policy
import QualityFlow.Template.Planned
import QualityFlow.Assert.Arrays
import QualityFlow.Constants.Live
import QualityFlow.Context.Atomic
import QualityFlow.Context.ReadBack
import QualityFlow.Suite.Execute
import QualityFlow.Suite.Update
import QualityFlow.Py.Asks
import QualityFlow.Suite.Asked
import QualityFlow.Suite.Collected
import QualityFlow.MockServer.Bodies
import QualityFlow.MockServer.Routes
import QualityFlow.Broker.Acks
import QualityFlow.Broker.Exit
import QualityFlow.Broker.Export
import QualityFlow.Dataset.Accepted
import QualityFlow.Dataset.Where
import QualityFlow.MockServer.Listener
import QualityFlow.Broker.Receive
import QualityFlow.Command.HttpTree
import QualityFlow.JsonUtils.Safe
import QualityFlow.Suite.Steps
import QualityFlow.Suite.Streaming
import QualityFlow.Export.Upsert
import QualityFlow.MockServer.OpenApi
import QualityFlow.Suite.FieldPath
import QualityFlow.Message.Rows
import QualityFlow.Migration.Collapse
import QualityFlow.Migration.Preserved
import QualityFlow.Events.Frames
import QualityFlow.Suite.Declared
import QualityFlow.Context.Constants
import QualityFlow.Template.Executed
import QualityFlow.Ui.Pages
import QualityFlow.MockServer.Served
